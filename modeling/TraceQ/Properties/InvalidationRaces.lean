import TraceQ.Backend.Invalidations
import TraceQ.Properties.DeviceInvalidation

/-! # Which invalidations the rebuilds can miss

An invalidation looks for projected observations and a rebuild looks for recorded invalidations, and
neither sees what the other has not committed. Where at least one of the two sees the other, every
trusted observation of the device is repaired by a rebuild still to come or by the mark of its item.
-/
namespace TraceQ.Properties
open Projections Quality Tables Backend Transactions
set_option autoImplicit false
set_option maxHeartbeats 250000

/-! ## What is to be kept -/

/-- The row of the item is stale, failed or rebuilding. -/
def LeftToRepair (tables : DeviceTables) (itemId : String) : Prop :=
  ∃ status, tables.status itemId = some status ∧ status ≠ .upToDate

def Covered (record : ControlDeviceInvalidation) (obs : Observation) : Prop :=
  invalidationCovers record obs.controlDeviceId obs.occurredAt = true

/-- A trusted observation under a recorded invalidation is left to be repaired. An inspection that is
impossible to assess is never trusted. -/
def NoneLost (tables : DeviceTables) : Prop :=
  ∀ obs ∈ tables.observations, ∀ record ∈ tables.invalidations, Covered record obs →
    obs.trustStatus ≠ .trusted ∨ LeftToRepair tables obs.itemId

def Valued.Covered (v : Valued) (record : ControlDeviceInvalidation) : Prop :=
  invalidationCovers record v.value.payload.controlDeviceId v.value.occurredAt = true

/-- The rebuild sees the record wherever it matters, or will write `failed`. -/
def JobPhase.Repairs (record : ControlDeviceInvalidation) : JobPhase → Prop
  | .valuing _ _ _ done => ∀ v ∈ done, Valued.Covered v record → record ∈ v.seen
  | .failedRead status => status ≠ some .failed
  | _ => True

/-- The transaction will value the item with the record seen, or mark it. -/
inductive WillRepair (record : ControlDeviceInvalidation) (itemId : String) :
    DeviceTransaction → Prop where
  | now (job : Job) (hkind : job.kind ≠ .single) (hown : job.own = none)
      (hitem : job.itemId = itemId) (hphase : JobPhase.Repairs record job.phase) :
      WillRepair record itemId (.rebuilds job)
  | later (job : Job) (hkind : job.kind ≠ .single) (hown : job.own = none)
      (hitem : itemId ∈ job.rest) : WillRepair record itemId (.rebuilds job)

/-- The trusted observations under the record belong to the items, or are left to be repaired. -/
def Reaches (tables : DeviceTables) (record : ControlDeviceInvalidation) (items : List String) : Prop :=
  ∀ obs ∈ tables.observations, Covered record obs → obs.trustStatus = .trusted →
    obs.itemId ∈ items ∨ LeftToRepair tables obs.itemId

/-- When a commit loses no invalidation. One that records an invalidation has found the trusted
observations under it; one that writes trusted observations has seen the records over them, or another
transaction will repair the item. -/
def Caught (w : DeviceWorld) (i : ℕ) : DeviceTransaction → Prop
  | .marks raw record items _ _ => Reaches w.committed record (ownItem raw ++ items)
  | .found none record [] => Reaches w.committed record []
  | .rebuilds job =>
      (∀ record, job.own = some record → Reaches w.committed record (job.itemId :: job.rest)) ∧
      ∀ isNew raws done, job.phase = .valuing isNew raws [] done →
        ∀ v ∈ done, v.value.trustStatus = .trusted → ∀ record ∈ w.committed.invalidations,
          Valued.Covered v record → record ∈ v.seen ∨
            ∃ j m, j ≠ i ∧ w.flight j = some m ∧ WillRepair record job.itemId m
  | _ => True

/-! ## One valued inspection -/

/-- An inspection valued as trusted is not covered by a record that was seen. -/
theorem valuedEvent_missed {config : Configuration} {seen : List ControlDeviceInvalidation}
    {raw : RawEvent} {v : Valued} (h : valuedEvent config seen raw = some v)
    (hdevices : ∀ record ∈ seen, record.deviceId ≠ "") :
    v.seen = seen ∧ (v.value.trustStatus = .trusted → ∀ record ∈ seen, ¬ Valued.Covered v record) := by
  cases hpayload : raw.payload with
  | inspectionResult payload =>
    simp only [valuedEvent, hpayload, Option.some.injEq] at h
    subst h
    refine ⟨rfl, fun htrust record hrecord hcovers => ?_⟩
    have hcovers' : invalidationCovers record payload.controlDeviceId raw.occurredAt = true := hcovers
    have hdevice : payload.controlDeviceId = some record.deviceId := by
      simp only [invalidationCovers, Bool.and_eq_true, decide_eq_true_eq] at hcovers'
      exact hcovers'.1
    have htruthy : truthy payload.controlDeviceId = true := by
      rw [hdevice]
      simpa [truthy] using hdevices record hrecord
    have hinvalidated : deviceInvalidated seen payload.controlDeviceId raw.occurredAt = true := by
      rw [deviceInvalidated, htruthy, Bool.true_and, List.any_eq_true]
      exact ⟨record, hrecord, hcovers'⟩
    simp only [observationValue, evaluateTrust, hinvalidated, if_true] at htrust
    split at htrust
    · cases htrust
    · cases htrust
  | _ => simp [valuedEvent, hpayload] at h

/-- A trusted row comes from an inspection valued as trusted. -/
theorem valuedRows_trusted {itemId : String} {done : List Valued} {obs : Observation}
    (h : obs ∈ valuedRows itemId done) :
    obs.itemId = itemId ∧ (obs.trustStatus = .trusted → ∃ v ∈ done, v.value.trustStatus = .trusted ∧
      ∀ record, Covered record obs ↔ Valued.Covered v record) := by
  simp only [valuedRows, markConflicts, List.map_map, List.mem_map, Function.comp_apply] at h
  obtain ⟨v, hv, rfl⟩ := h
  refine ⟨rfl, fun htrust => ⟨v, hv, ?_⟩⟩
  split at htrust
  · cases htrust
  · rename_i hopposed
    refine ⟨htrust, fun record => ?_⟩
    rw [if_neg hopposed]
    exact Iff.rfl

/-! ## What holds of each transaction -/

/-- Records have a device, and observations come from stored events. -/
structure TablesValid (tables : DeviceTables) : Prop where
  devices : ∀ record ∈ tables.invalidations, record.deviceId ≠ ""
  stored : ∀ obs ∈ tables.observations, ∃ raw ∈ tables.rawEvents, raw.itemId = some obs.itemId

structure ValuingValid (tables : DeviceTables) (job : Job) (raws : List RawEvent)
    (done : List Valued) : Prop where
  stored : ∀ raw ∈ raws, raw ∈ tables.rawEvents ∧ raw.itemId = some job.itemId
  empty : raws = [] → ∀ obs ∈ tables.observations, obs.itemId ≠ job.itemId
  own_seen : ∀ record, job.own = some record → ∀ v ∈ done, record ∈ v.seen
  missed : ∀ v ∈ done, v.value.trustStatus = .trusted → ∀ record ∈ v.seen, ¬ Valued.Covered v record

structure JobValid (tables : DeviceTables) (job : Job) : Prop where
  own_kind : job.own ≠ none → job.kind = .human
  own_device : ∀ record, job.own = some record → record.deviceId ≠ ""
  valuing : ∀ isNew raws todo done, job.phase = .valuing isNew raws todo done →
    ValuingValid tables job raws done

def TransactionValid (tables : DeviceTables) : DeviceTransaction → Prop
  | .invalidates _ record => record.deviceId ≠ ""
  | .found _ record _ => record.deviceId ≠ ""
  | .marks _ record _ _ _ => record.deviceId ≠ ""
  | .rebuilds job => JobValid tables job
  | _ => True

/-- No two transactions hold the advisory lock of one item. -/
def Apart (l m : DeviceTransaction) : Prop :=
  ∀ itemId, l.itemLock = some itemId → m.itemLock ≠ some itemId

theorem apart_symm (l m : DeviceTransaction) (h : Apart l m) : Apart m l :=
  fun itemId hm hl => h itemId hl hm

theorem apart_of_unlocked {l : DeviceTransaction} (h : l.itemLock = none) (m : DeviceTransaction) :
    Apart l m := by
  intro itemId hl
  rw [h] at hl
  cases hl

abbrev DeviceHeld : DeviceWorld → Prop := Protocol.Held TablesValid TransactionValid Apart

/-- A job that has valued nothing yet. -/
theorem jobValid_of_phase {tables : DeviceTables} {job : Job} {phase : JobPhase}
    (h : JobValid tables job) (hphase : ∀ isNew raws todo done, phase ≠ .valuing isNew raws todo done) :
    JobValid tables { job with phase := phase } :=
  ⟨h.own_kind, h.own_device, fun isNew raws todo done hvaluing =>
    absurd hvaluing (hphase isNew raws todo done)⟩

theorem nextJob_valid {tables : DeviceTables} {kind : JobKind} {items : List String}
    {m : DeviceTransaction} (h : nextJob kind items = some m) :
    TransactionValid tables m ∧ m.itemLock = none := by
  cases items with
  | nil => cases h
  | cons itemId rest =>
    simp only [nextJob, Option.some.injEq] at h
    subst h
    refine ⟨⟨fun hown => absurd rfl hown, ?_, ?_⟩, rfl⟩
    · intro record hown
      cases hown
    · intro isNew raws todo done hphase
      cases hphase

theorem nextJob_repairs {kind : JobKind} {items : List String} {record : ControlDeviceInvalidation}
    {itemId : String} (hkind : kind ≠ .single) (hitem : itemId ∈ items) :
    ∃ m, nextJob kind items = some m ∧ WillRepair record itemId m := by
  cases items with
  | nil => cases hitem
  | cons first rest =>
    refine ⟨_, rfl, ?_⟩
    rcases List.mem_cons.mp hitem with rfl | hrest
    · apply WillRepair.now
      · exact hkind
      · rfl
      · rfl
      · trivial
    · apply WillRepair.later
      · exact hkind
      · rfl
      · exact hrest

/-- What a transaction relies on survives the commits of others, which append events and leave the
observations of a locked item alone. -/
theorem transactionValid_mono {tables tables' : DeviceTables} {m : DeviceTransaction}
    (h : TransactionValid tables m) (hraws : tables.rawEvents ⊆ tables'.rawEvents)
    (hobs : ∀ itemId, m.itemLock = some itemId → ∀ obs ∈ tables'.observations, obs.itemId = itemId →
      obs ∈ tables.observations) : TransactionValid tables' m := by
  cases m with
  | rebuilds job =>
    obtain ⟨hkind, hdevice, hvaluing⟩ := h
    refine ⟨hkind, hdevice, fun isNew raws todo done hphase => ?_⟩
    obtain ⟨hstored, hempty, hown, hmissed⟩ := hvaluing isNew raws todo done hphase
    refine ⟨fun raw hraw => ⟨hraws (hstored raw hraw).1, (hstored raw hraw).2⟩, ?_, hown, hmissed⟩
    intro hnil obs hmem hitem
    have hlock : (DeviceTransaction.rebuilds job).itemLock = some job.itemId := by
      simp only [DeviceTransaction.itemLock, hphase]
    exact hempty hnil obs (hobs job.itemId hlock obs hmem hitem) hitem
  | _ => exact h

/-! ## One step -/

section Steps
variable {config : Configuration} {w : DeviceWorld} {i : ℕ}

theorem begins_held {l : DeviceTransaction} (h : (deviceProtocol config).begins l)
    (tables : DeviceTables) : TransactionValid tables l ∧ l.itemLock = none := by
  rcases h with ⟨raw, itemId, rfl, -⟩ | ⟨source, record, rfl, hdevice, -⟩ | ⟨itemId, rfl⟩
  · exact ⟨trivial, rfl⟩
  · exact ⟨hdevice, rfl⟩
  · refine ⟨⟨fun hown => absurd rfl hown, ?_, ?_⟩, rfl⟩
    · intro record hown
      cases hown
    · intro isNew raws todo done hphase
      cases hphase

theorem jobMoves_held (hw : DeviceHeld w) {job job' : Job} (hrunning : w.flight i = some (.rebuilds job))
    (h : JobMoves config w i job job') :
    JobValid w.committed job' ∧ w.Others i (Apart (.rebuilds job')) := by
  have hjob : JobValid w.committed job := hw.each i _ hrunning
  have hkept : job'.itemId = job.itemId → (DeviceTransaction.rebuilds job').itemLock =
      (DeviceTransaction.rebuilds job).itemLock → w.Others i (Apart (.rebuilds job')) := by
    intro _ hlock j m hj hm itemId hitem
    exact hw.pairs i _ hrunning j m hj hm itemId (hlock ▸ hitem)
  have hunlocked : (DeviceTransaction.rebuilds job').itemLock = none →
      w.Others i (Apart (.rebuilds job')) := fun hlock j m _ _ => apart_of_unlocked hlock m
  cases h with
  | reads hphase =>
    exact ⟨jobValid_of_phase hjob (by simp), hunlocked rfl⟩
  | flushes status hphase hlock hnew =>
    exact ⟨jobValid_of_phase hjob (by simp), hunlocked rfl⟩
  | locks isNew hphase hlock =>
    refine ⟨⟨hjob.own_kind, hjob.own_device, ?_⟩, ?_⟩
    · intro isNew' raws todo done hvaluing
      obtain ⟨rfl, rfl, rfl, rfl⟩ : isNew = isNew' ∧ itemHistory w.committed job.itemId = raws ∧
          itemHistory w.committed job.itemId = todo ∧ [] = done := by simpa using hvaluing
      have hmem : ∀ raw, raw ∈ itemHistory w.committed job.itemId ↔
          raw ∈ w.committed.rawEvents ∧ raw.itemId = some job.itemId := by
        intro raw
        refine mem_history.trans ?_
        simp [storedEvents]
      refine ⟨fun raw hraw => (hmem raw).mp hraw, ?_, ?_, ?_⟩
      · intro hnil obs hobs hitem
        obtain ⟨raw, hraw, hrawItem⟩ := hw.shared.stored obs hobs
        have hfound := (hmem raw).mpr ⟨hraw, hitem ▸ hrawItem⟩
        rw [hnil] at hfound
        cases hfound
      · exact fun _ _ v hv => absurd hv List.not_mem_nil
      · exact fun v hv => absurd hv List.not_mem_nil
    · intro j m hj hm itemId hitem
      obtain rfl : job.itemId = itemId := by simpa [DeviceTransaction.itemLock] using hitem
      exact hlock j m hj hm
  | values isNew raws raw todo done hphase =>
    obtain ⟨hstored, hempty, hown, hmissed⟩ := hjob.valuing _ _ _ _ hphase
    have hseen : ∀ record ∈ w.committed.invalidations ++ job.own.toList, record.deviceId ≠ "" := by
      intro record hrecord
      rcases List.mem_append.mp hrecord with h | h
      · exact hw.shared.devices record h
      · exact hjob.own_device record (by simpa using h)
    refine ⟨⟨hjob.own_kind, hjob.own_device, ?_⟩, hkept rfl ?_⟩
    · intro isNew' raws' todo' done' hvaluing
      obtain ⟨rfl, rfl, rfl, rfl⟩ : isNew = isNew' ∧ raws = raws' ∧ todo = todo' ∧
          done ++ (valuedEvent config (w.committed.invalidations ++ job.own.toList) raw).toList =
            done' := by simpa using hvaluing
      refine ⟨hstored, hempty, ?_, ?_⟩
      · intro record hrecord v hv
        rcases List.mem_append.mp hv with hold | hnew
        · exact hown record hrecord v hold
        · have hvalued := valuedEvent_missed (by simpa using hnew) hseen
          have hrecord' : job.own = some record := hrecord
          rw [hvalued.1, hrecord']
          simp
      · intro v hv htrust record hrecord
        rcases List.mem_append.mp hv with hold | hnew
        · exact hmissed v hold htrust record hrecord
        · have hvalued := valuedEvent_missed (by simpa using hnew) hseen
          exact hvalued.2 htrust record (hvalued.1 ▸ hrecord)
    · simp only [DeviceTransaction.itemLock, hphase]
  | raises hkind hphase =>
    exact ⟨jobValid_of_phase hjob (by simp), hunlocked rfl⟩
  | failedReads hphase =>
    exact ⟨jobValid_of_phase hjob (by simp), hunlocked rfl⟩

theorem moves_held (hw : DeviceHeld w) {l l' : DeviceTransaction} (hrunning : w.flight i = some l)
    (h : DeviceMoves config w i l l') :
    TransactionValid w.committed l' ∧ w.Others i (Apart l') := by
  have hl := hw.each i l hrunning
  have hunlocked : l'.itemLock = none → w.Others i (Apart l') :=
    fun hlock j m _ _ => apart_of_unlocked hlock m
  cases h with
  | ingestReads raw itemId => exact ⟨trivial, hunlocked rfl⟩
  | finds source record => exact ⟨hl, hunlocked rfl⟩
  | marks raw record items => exact ⟨hl, hunlocked rfl⟩
  | readsRow raw record items todo itemId reads => exact ⟨hl, hunlocked rfl⟩
  | rebuildsFirst record itemId rest =>
    refine ⟨⟨fun _ => rfl, ?_, ?_⟩, hunlocked rfl⟩
    · intro record' hown
      obtain rfl := Option.some.inj hown
      exact hl
    · intro isNew raws todo done hphase
      cases hphase
  | rebuilds job job' hjob => exact jobMoves_held hw hrunning hjob

/-- What a commit leaves valid: its own tables, the others, and the rebuild it goes on with. -/
theorem commits_held (hw : DeviceHeld w) {l : DeviceTransaction} (hrunning : w.flight i = some l)
    {tables : DeviceTables} {l' : Option DeviceTransaction}
    (h : DeviceCommits w i l tables l') :
    TablesValid tables ∧ w.Others i (TransactionValid tables) ∧
      ∀ m, l' = some m → TransactionValid tables m ∧ w.Others i (Apart m) := by
  have hl := hw.each i l hrunning
  obtain ⟨hdevices, hstored⟩ := hw.shared
  have hothers : w.committed.rawEvents ⊆ tables.rawEvents →
      tables.observations = w.committed.observations → w.Others i (TransactionValid tables) :=
    fun hraws hobs j m _ hm =>
      transactionValid_mono (hw.each j m hm) hraws fun _ _ _ hmem _ => hobs ▸ hmem
  have hnext : ∀ kind items m, nextJob kind items = some m →
      TransactionValid tables m ∧ w.Others i (Apart m) := by
    intro kind items m hm
    obtain ⟨hvalid, hlock⟩ := nextJob_valid hm
    exact ⟨hvalid, fun j n _ _ => apart_of_unlocked hlock n⟩
  have happended : ∀ (raw : RawEvent) {obs : Observation}, obs ∈ w.committed.observations →
      ∃ stored ∈ w.committed.rawEvents ++ [raw], stored.itemId = some obs.itemId := by
    intro raw obs hobs
    obtain ⟨stored, hmem, hitem⟩ := hstored obs hobs
    exact ⟨stored, List.mem_append_left _ hmem, hitem⟩
  cases h with
  | ingest raw itemId read hlock =>
    refine ⟨⟨hdevices, fun obs hobs => happended raw hobs⟩, ?_, by simp⟩
    exact hothers (List.subset_append_left _ _) rfl
  | event raw record items reads hlock =>
    refine ⟨⟨?_, fun obs hobs => happended raw hobs⟩, ?_, fun m hm => hnext _ _ m hm⟩
    · intro other hother
      rcases List.mem_append.mp hother with hold | hnew
      · exact hdevices other hold
      · obtain rfl := List.mem_singleton.mp hnew
        exact hl
    · exact hothers (List.subset_append_left _ _) rfl
  | human record =>
    refine ⟨⟨?_, hstored⟩, hothers (fun _ h => h) rfl, by simp⟩
    intro other hother
    rcases List.mem_append.mp hother with hold | hnew
    · exact hdevices other hold
    · obtain rfl := List.mem_singleton.mp hnew
      exact hl
  | rebuild job isNew raws done hphase =>
    have hjob : JobValid w.committed job := hl
    obtain ⟨hraws, hempty, -, -⟩ := hjob.valuing _ _ _ _ hphase
    have hlock : (DeviceTransaction.rebuilds job).itemLock = some job.itemId := by
      simp only [DeviceTransaction.itemLock, hphase]
    refine ⟨⟨?_, ?_⟩, ?_, fun m hm => hnext _ _ m hm⟩
    · intro other hother
      rcases List.mem_append.mp hother with hold | hnew
      · exact hdevices other hold
      · exact hjob.own_device other (by simpa using hnew)
    · intro obs hobs
      by_cases hnil : raws = []
      · simp only [hnil, if_true] at hobs
        exact hstored obs hobs
      · simp only [hnil, if_false] at hobs
        rcases List.mem_append.mp hobs with hold | hnew
        · exact hstored obs (List.mem_filter.mp hold).1
        · obtain ⟨raw, hraw⟩ := List.exists_mem_of_ne_nil raws hnil
          rw [(valuedRows_trusted hnew).1]
          exact ⟨raw, hraws raw hraw⟩
    · intro j m hj hm
      refine transactionValid_mono (hw.each j m hm) (fun _ h => h) ?_
      intro itemId hitem obs hobs hobsItem
      by_cases hnil : raws = []
      · simpa [hnil] using hobs
      · simp only [hnil, if_false] at hobs
        rcases List.mem_append.mp hobs with hold | hnew
        · exact (List.mem_filter.mp hold).1
        · -- the other transaction would hold the same lock
          obtain rfl : job.itemId = itemId := (valuedRows_trusted hnew).1.symm.trans hobsItem
          exact absurd hitem (hw.pairs i _ hrunning j m hj hm _ hlock)
  | failed job read hphase hlock hnew =>
    exact ⟨⟨hdevices, hstored⟩, hothers (fun _ h => h) rfl, fun m hm => hnext _ _ m hm⟩

end Steps

theorem step_held {config : Configuration} {w w' : DeviceWorld} (hw : DeviceHeld w)
    (h : ((deviceProtocol config).restrict Caught).Step w w') : DeviceHeld w' := by
  refine Protocol.held_step apart_symm ?_ ?_ ?_ hw h
  · intro s l _ hl
    have hbegins : (deviceProtocol config).begins l := hl
    obtain ⟨hvalid, hlock⟩ := begins_held hbegins s
    exact ⟨hvalid, apart_of_unlocked hlock⟩
  · exact fun w i l l' hw hrunning hl => moves_held hw hrunning hl
  · exact fun w i l s l' hw hrunning hl => commits_held hw hrunning hl.1

/-! ## Every trusted observation is watched -/

/-- The item is left to be repaired, or a transaction will repair it. -/
def Repairable (w : DeviceWorld) (record : ControlDeviceInvalidation) (itemId : String) : Prop :=
  LeftToRepair w.committed itemId ∨ ∃ j l, w.flight j = some l ∧ WillRepair record itemId l

def Watched (w : DeviceWorld) : Prop :=
  ∀ obs ∈ w.committed.observations, ∀ record ∈ w.committed.invalidations, Covered record obs →
    obs.trustStatus = .trusted → Repairable w record obs.itemId

section Watch
variable {config : Configuration} {w : DeviceWorld} {i : ℕ} {record : ControlDeviceInvalidation}
  {itemId : String}

/-- A transaction that will repair the item goes on to do so, or has read that the item is marked. -/
theorem moves_repair {l l' : DeviceTransaction} (h : DeviceMoves config w i l l')
    (hrecord : record ∈ w.committed.invalidations) (hrepair : WillRepair record itemId l) :
    WillRepair record itemId l' ∨ LeftToRepair w.committed itemId := by
  cases hrepair with
  | later job hkind hown hitem =>
    cases h with
    | rebuilds _ job' hmove =>
      left
      cases hmove with
      | _ => exact .later _ hkind hown hitem
  | now job hkind hown hitem hphase =>
    cases h with
    | rebuilds _ job' hmove =>
      cases hmove with
      | failedReads hraised =>
        by_cases hfailed : w.committed.status job.itemId = some .failed
        · exact .inr ⟨.failed, hitem ▸ hfailed, by simp⟩
        · exact .inl (.now _ hkind hown hitem hfailed)
      | values isNew raws raw todo done hvaluing =>
        refine .inl (.now _ hkind hown hitem fun v hv hcovers => ?_)
        rw [hvaluing] at hphase
        rcases List.mem_append.mp hv with hold | hnew
        · exact hphase v hold hcovers
        · have hseen : v.seen = w.committed.invalidations ++ job.own.toList := by
            cases hpayload : raw.payload with
            | inspectionResult payload =>
              simp only [valuedEvent, hpayload, Option.toList_some, List.mem_singleton] at hnew
              rw [hnew]
            | _ => simp [valuedEvent, hpayload] at hnew
          rw [hseen]
          exact List.mem_append_left _ hrecord
      | locks isNew hflushed hlock =>
        exact .inl (.now _ hkind hown hitem fun v hv => absurd hv List.not_mem_nil)
      | reads hstart => exact .inl (.now _ hkind hown hitem trivial)
      | flushes status hread hlock hnew => exact .inl (.now _ hkind hown hitem trivial)
      | raises hhuman hfailed => exact .inl (.now _ hkind hown hitem trivial)

/-- What other transactions will repair, they will repair after this step. -/
theorem Repairable.others {w' : DeviceWorld} (h : Repairable w record itemId)
    (hmark : LeftToRepair w.committed itemId → LeftToRepair w'.committed itemId)
    (hothers : ∀ j, j ≠ i → w'.flight j = w.flight j)
    (hself : ∀ l, w.flight i = some l → WillRepair record itemId l → Repairable w' record itemId) :
    Repairable w' record itemId := by
  rcases h with hmarked | ⟨j, l, hj, hrepair⟩
  · exact .inl (hmark hmarked)
  · by_cases hji : j = i
    · subst hji
      exact hself l hj hrepair
    · exact .inr ⟨j, l, (hothers j hji).trans hj, hrepair⟩

/-- Marking rows leaves them marked. -/
theorem markRead_leftToRepair {tables : DeviceTables} {status : String → Option ProjectionStatus}
    {reads : List (String × Option ProjectionStatus)} (hstatus : status = markRead reads tables.status)
    {raws : List RawEvent} {records : List ControlDeviceInvalidation}
    (h : LeftToRepair tables itemId) :
    LeftToRepair ⟨raws, records, tables.observations, status⟩ itemId := by
  obtain ⟨current, hcurrent, hmarked⟩ := h
  subst hstatus
  simp only [LeftToRepair, markRead]
  cases hread : reads.lookup itemId with
  | none => exact ⟨current, hcurrent, hmarked⟩
  | some found =>
    cases found with
    | none => exact ⟨current, hcurrent, hmarked⟩
    | some read =>
      refine ⟨written read .stale current, by simp [hcurrent], ?_⟩
      unfold written
      split
      · exact hmarked
      · decide

/-- A failed rebuild marks the row it read unless it read it as failed, and leaves a mark. -/
theorem failed_marks {read current : Option ProjectionStatus}
    (h : read ≠ some .failed ∨ ∃ status, current = some status ∧ status ≠ .upToDate) :
    failedStatus read current ≠ .upToDate := by
  cases read with
  | none => simp [failedStatus]
  | some read =>
    cases current with
    | none => simp [failedStatus]
    | some current =>
      simp only [failedStatus, written]
      split
      · rename_i hfailed
        rcases h with h | ⟨status, hstatus, hmarked⟩
        · exact absurd (congrArg some hfailed.symm) h
        · obtain rfl := Option.some.inj hstatus
          exact hmarked
      · decide

/-! ### One commit -/

/-- The world after a commit of transaction `i`. -/
def after (w : DeviceWorld) (i : ℕ) (tables : DeviceTables) (l' : Option DeviceTransaction) :
    DeviceWorld :=
  World.set { w with committed := tables } i l'

theorem after_others {tables : DeviceTables} {l' : Option DeviceTransaction} (j : ℕ) (hj : j ≠ i) :
    (after w i tables l').flight j = w.flight j := by
  simp [after, World.set, hj]

theorem after_self {tables : DeviceTables} {l' : Option DeviceTransaction} {m : DeviceTransaction}
    (hm : l' = some m) (hrepair : WillRepair record itemId m) :
    Repairable (after w i tables l') record itemId :=
  .inr ⟨i, m, by simp [after, World.set, hm], hrepair⟩

/-- A commit that ends a transaction which repairs nothing. -/
theorem after_idle {tables : DeviceTables} {l : DeviceTransaction} {l' : Option DeviceTransaction}
    (h : Repairable w record itemId) (hrunning : w.flight i = some l)
    (hidle : ¬ WillRepair record itemId l)
    (hmark : LeftToRepair w.committed itemId → LeftToRepair tables itemId) :
    Repairable (after w i tables l') record itemId := by
  refine h.others hmark after_others ?_
  intro l hl hrepair
  rw [hrunning] at hl
  obtain rfl := Option.some.inj hl
  exact absurd hrepair hidle

theorem rebuild_watched {job : Job} {isNew : Bool} {raws : List RawEvent} {done : List Valued}
    {tables : DeviceTables} (hw : DeviceHeld w) (hwatch : Watched w)
    (hrunning : w.flight i = some (.rebuilds job)) (hcaught : Caught w i (.rebuilds job))
    (hphase : job.phase = .valuing isNew raws [] done)
    (hinv : tables.invalidations = w.committed.invalidations ++ job.own.toList)
    (hobs : tables.observations = if raws = [] then w.committed.observations
      else replaceOwned (·.itemId) job.itemId w.committed.observations (valuedRows job.itemId done))
    (hstatus : tables.status = Function.update w.committed.status job.itemId (some .upToDate)) :
    Watched (after w i tables (nextJob job.kind job.rest)) := by
  obtain ⟨hfound, hseen⟩ := hcaught
  have hjob : JobValid w.committed job := hw.each i _ hrunning
  obtain ⟨-, hempty, hownSeen, hmissed⟩ := hjob.valuing _ _ _ _ hphase
  intro obs hmem record hrecord hcovers htrust
  have hrecord' : record ∈ w.committed.invalidations ∨ job.own = some record := by
    have hmem : record ∈ tables.invalidations := hrecord
    rw [hinv] at hmem
    simpa using hmem
  have hmem' : obs ∈ w.committed.observations ∧ obs.itemId ≠ job.itemId ∨
      obs ∈ valuedRows job.itemId done := by
    have hmem' : obs ∈ tables.observations := hmem
    rw [hobs] at hmem'
    by_cases hnil : raws = []
    · rw [if_pos hnil] at hmem'
      exact .inl ⟨hmem', hempty hnil obs hmem'⟩
    · rw [if_neg hnil] at hmem'
      rcases List.mem_append.mp hmem' with hold | hnew
      · exact .inl ⟨(List.mem_filter.mp hold).1, by simpa using (List.mem_filter.mp hold).2⟩
      · exact .inr hnew
  rcases hmem' with ⟨hold, hother⟩ | hnew
  · -- another item: its mark and the rebuilds to come are those before the commit
    have hmark : LeftToRepair w.committed obs.itemId → LeftToRepair tables obs.itemId := by
      rintro ⟨status, hcurrent, hmarked⟩
      exact ⟨status, by rw [hstatus, Function.update_of_ne hother]; exact hcurrent, hmarked⟩
    rcases hrecord' with hrecorded | hown
    · refine (hwatch obs hold record hrecorded hcovers htrust).others hmark after_others ?_
      intro l hl hrepair
      rw [hrunning] at hl
      obtain rfl := Option.some.inj hl
      cases hrepair with
      | now _ hkind hown hitem hrepairs => exact absurd hitem.symm hother
      | later _ hkind hown hitem =>
        obtain ⟨m, hm, hrepair⟩ := nextJob_repairs hkind hitem
        exact after_self hm hrepair
    · have hkind : job.kind ≠ .single := by
        rw [hjob.own_kind (by simp [hown])]
        decide
      rcases hfound record hown obs hold hcovers htrust with hitem | hmarked
      · obtain ⟨m, hm, hrepair⟩ :=
          nextJob_repairs hkind ((List.mem_cons.mp hitem).resolve_left hother)
        exact after_self hm hrepair
      · exact .inl (hmark hmarked)
  · -- the rebuilt item: a trusted row under the record was valued before the record was committed
    obtain ⟨hitem, hvalued⟩ := valuedRows_trusted hnew
    obtain ⟨v, hv, hvtrust, hvcovers⟩ := hvalued htrust
    have hvcovered := (hvcovers record).mp hcovers
    rcases hrecord' with hrecorded | hown
    · rcases hseen isNew raws done hphase v hv hvtrust record hrecorded hvcovered with
        hsaw | ⟨j, m, hj, hm, hrepair⟩
      · exact absurd hvcovered (hmissed v hv hvtrust record hsaw)
      · exact .inr ⟨j, m, (after_others j hj).trans hm, hitem ▸ hrepair⟩
    · exact absurd hvcovered (hmissed v hv hvtrust record (hownSeen record hown v hv))

theorem failed_watched {job : Job} {read : Option ProjectionStatus} {tables : DeviceTables}
    (hwatch : Watched w) (hrunning : w.flight i = some (.rebuilds job))
    (hphase : job.phase = .failedRead read)
    (hinv : tables.invalidations = w.committed.invalidations)
    (hobs : tables.observations = w.committed.observations)
    (hstatus : tables.status = Function.update w.committed.status job.itemId
      (some (failedStatus read (w.committed.status job.itemId)))) :
    Watched (after w i tables (nextJob job.kind job.rest)) := by
  intro obs hmem record hrecord hcovers htrust
  have hmem' : obs ∈ tables.observations := hmem
  have hrecord' : record ∈ tables.invalidations := hrecord
  rw [hobs] at hmem'
  rw [hinv] at hrecord'
  have hfailed : read ≠ some .failed ∨ LeftToRepair w.committed job.itemId →
      LeftToRepair tables job.itemId := by
    intro h
    exact ⟨_, by rw [hstatus, Function.update_self], failed_marks h⟩
  have hmark : LeftToRepair w.committed obs.itemId → LeftToRepair tables obs.itemId := by
    intro hmarked
    by_cases hitem : obs.itemId = job.itemId
    · rw [hitem] at hmarked ⊢
      exact hfailed (.inr hmarked)
    · obtain ⟨status, hcurrent, hne⟩ := hmarked
      exact ⟨status, by rw [hstatus, Function.update_of_ne hitem]; exact hcurrent, hne⟩
  refine (hwatch obs hmem' record hrecord' hcovers htrust).others hmark after_others ?_
  intro l hl hrepair
  rw [hrunning] at hl
  obtain rfl := Option.some.inj hl
  cases hrepair with
  | now _ hkind hown hitem hrepairs =>
    rw [hphase] at hrepairs
    exact .inl (hitem ▸ hfailed (.inl hrepairs))
  | later _ hkind hown hitem =>
    obtain ⟨m, hm, hrepair⟩ := nextJob_repairs hkind hitem
    exact after_self hm hrepair

theorem commits_watched (hw : DeviceHeld w) (hwatch : Watched w) {l : DeviceTransaction}
    (hrunning : w.flight i = some l) (hcaught : Caught w i l) {tables : DeviceTables}
    {l' : Option DeviceTransaction} (h : DeviceCommits w i l tables l') :
    Watched (after w i tables l') := by
  cases h with
  | ingest raw itemId read hlock =>
    intro obs hobs record hrecord hcovers htrust
    exact after_idle (hwatch obs hobs record hrecord hcovers htrust) hrunning nofun
      (markRead_leftToRepair rfl)
  | event raw own items reads hlock =>
    intro obs hobs record hrecord hcovers htrust
    rcases List.mem_append.mp hrecord with hold | hnew
    · exact after_idle (hwatch obs hobs record hold hcovers htrust) hrunning nofun
        (markRead_leftToRepair rfl)
    · obtain rfl := List.mem_singleton.mp hnew
      rcases hcaught obs hobs hcovers htrust with hitem | hmarked
      · have hkind : JobKind.event ≠ .single := by decide
        obtain ⟨m, hm, hrepair⟩ := nextJob_repairs hkind hitem
        exact after_self hm hrepair
      · exact .inl (markRead_leftToRepair rfl hmarked)
  | human own =>
    intro obs hobs record hrecord hcovers htrust
    rcases List.mem_append.mp hrecord with hold | hnew
    · exact after_idle (hwatch obs hobs record hold hcovers htrust) hrunning nofun fun h => h
    · obtain rfl := List.mem_singleton.mp hnew
      rcases hcaught obs hobs hcovers htrust with hitem | hmarked
      · cases hitem
      · exact .inl hmarked
  | rebuild job isNew raws done hphase =>
    exact rebuild_watched hw hwatch hrunning hcaught hphase rfl rfl rfl
  | failed job read hphase hlock hnew =>
    exact failed_watched hwatch hrunning hphase rfl rfl rfl

end Watch

/-! ## Every interleaving -/

theorem step_watched {config : Configuration} {w w' : DeviceWorld} (hw : DeviceHeld w)
    (hwatch : Watched w) (h : ((deviceProtocol config).restrict Caught).Step w w') : Watched w' := by
  cases h with
  | begins i l idle hl =>
    intro obs hobs record hrecord hcovers htrust
    refine (hwatch obs hobs record hrecord hcovers htrust).others (i := i) (fun h => h)
      (fun j hj => by simp [World.set, hj]) ?_
    intro l hl
    rw [idle] at hl
    cases hl
  | moves i l l' running hl =>
    intro obs hobs record hrecord hcovers htrust
    refine (hwatch obs hobs record hrecord hcovers htrust).others (i := i) (fun h => h)
      (fun j hj => by simp [World.set, hj]) ?_
    intro m hm hrepair
    rw [running] at hm
    obtain rfl := Option.some.inj hm
    rcases moves_repair hl hrecord hrepair with hnext | hmarked
    · exact .inr ⟨i, l', by simp [World.set], hnext⟩
    · exact .inl hmarked
  | commits i l s l' running hl => exact commits_watched hw hwatch running hl.2 hl.1
  | rollsBack i l running hl =>
    intro obs hobs record hrecord hcovers htrust
    refine (hwatch obs hobs record hrecord hcovers htrust).others (i := i) (fun h => h)
      (fun j hj => by simp [World.set, hj]) ?_
    intro m hm hrepair
    rw [running] at hm
    obtain rfl := Option.some.inj hm
    have hwhole : failsWhole l := hl
    cases hrepair with
    | now job hkind hown => simp [failsWhole, hkind, hown] at hwhole
    | later job hkind hown => simp [failsWhole, hkind, hown] at hwhole

theorem watched_quiet {tables : DeviceTables} (h : NoneLost tables) :
    Watched (World.quiet tables) := by
  intro obs hobs record hrecord hcovers htrust
  exact .inl ((h obs hobs record hrecord hcovers).resolve_left fun hne => hne htrust)

/-- In every interleaving whose commits see the invalidations, none is lost once nothing is in
flight. -/
theorem invalidations_kept {config : Configuration} {start : DeviceTables} (hvalid : TablesValid start)
    (hstart : NoneLost start) {w : DeviceWorld}
    (h : ((deviceProtocol config).restrict Caught).Reachable (World.quiet start) w)
    (hquiet : ∀ i, w.flight i = none) : NoneLost w.committed := by
  have hrun : DeviceHeld w ∧ Watched w := by
    refine Protocol.invariant (P := fun w => DeviceHeld w ∧ Watched w) ?_
      ⟨Protocol.held_quiet hvalid, watched_quiet hstart⟩ h
    exact fun a b ⟨ha, hawatch⟩ hstep => ⟨step_held ha hstep, step_watched ha hawatch hstep⟩
  intro obs hobs record hrecord hcovers
  by_cases htrust : obs.trustStatus = .trusted
  · rcases hrun.2 obs hobs record hrecord hcovers htrust with hmarked | ⟨j, l, hj, -⟩
    · exact .inr hmarked
    · rw [hquiet j] at hj
      cases hj
  · exact .inl htrust

/-! ### An inspection that is not projected yet -/

theorem item_one_named : truthy (some "item-1") = true := rfl

/-- The device finds nothing on the item. -/
def cleared : RawEvent := ⟨deviceGood "e-1" "item-1" item_one_named, 11, 1, "source:source-1", 1⟩

def unprojected : DeviceTables where
  rawEvents := [cleared]
  invalidations := []
  observations := []
  status := fun _ => some .stale

theorem unprojected_valid : TablesValid unprojected := by
  refine ⟨?_, ?_⟩
  · intro record hrecord
    cases hrecord
  · intro obs hobs
    cases hobs

theorem unprojected_noneLost : NoneLost unprojected := by
  intro obs hobs
  cases hobs

/-- A rebuild of the item in some phase. -/
def clearedJob (kind : JobKind) (own : Option ControlDeviceInvalidation) (phase : JobPhase) : Job :=
  { kind := kind, itemId := "item-1", phase := phase, own := own }

/-- The inspection as the rebuild values it. -/
def clearedValues (own : Option ControlDeviceInvalidation) : List Valued :=
  (valuedEvent {} own.toList cleared).toList

/-- A rebuild of the item beside nothing else values the inspection. -/
theorem job_values {start : DeviceWorld} {kind : JobKind} {own : Option ControlDeviceInvalidation}
    {tables : DeviceTables} {status : ProjectionStatus} (hraws : tables.rawEvents = [cleared])
    (hinv : tables.invalidations = []) (hstatus : tables.status "item-1" = some status)
    (h : ((deviceProtocol {}).restrict Caught).Reachable start
      (Protocol.alone tables (.rebuilds (clearedJob kind own .start)))) :
    ((deviceProtocol {}).restrict Caught).Reachable start (Protocol.alone tables
      (.rebuilds (clearedJob kind own (.valuing false [cleared] [] (clearedValues own))))) := by
  have hhistory : itemHistory tables "item-1" = [cleared] := by
    rw [itemHistory, hraws]
    rfl
  have hread : ((deviceProtocol {}).restrict Caught).Reachable start
      (Protocol.alone tables (.rebuilds (clearedJob kind own (.read (some status))))) := by
    refine Protocol.alone_moves h (.rebuilds _ _ ?_)
    rw [← hstatus]
    exact .reads rfl
  have hflushed : ((deviceProtocol {}).restrict Caught).Reachable start
      (Protocol.alone tables (.rebuilds (clearedJob kind own (.flushed false)))) :=
    Protocol.alone_moves hread (.rebuilds _ _ (.flushes (some status) rfl (Protocol.others_alone _ _ _)
      nofun))
  have hlocked : ((deviceProtocol {}).restrict Caught).Reachable start (Protocol.alone tables
      (.rebuilds (clearedJob kind own (.valuing false [cleared] [cleared] [])))) := by
    refine Protocol.alone_moves hflushed (.rebuilds _ _ ?_)
    rw [← hhistory]
    exact .locks false rfl (Protocol.others_alone _ _ _)
  refine Protocol.alone_moves hlocked (.rebuilds _ _ ?_)
  have hseen : own.toList = tables.invalidations ++ own.toList := by rw [hinv, List.nil_append]
  rw [clearedValues, hseen]
  exact .values false [cleared] cleared [] [] rfl

/-- The tables after the rebuild on its own. -/
def projectedTrusted : DeviceTables :=
  { unprojected with
    observations := valuedRows "item-1" (clearedValues none)
    status := Function.update unprojected.status "item-1" (some .upToDate) }

theorem projectedTrusted_reachable : ((deviceProtocol {}).restrict Caught).Reachable
    (World.quiet unprojected) (World.quiet projectedTrusted) := by
  have hbegun : ((deviceProtocol {}).restrict Caught).Reachable (World.quiet unprojected)
      (Protocol.alone unprojected (.rebuilds (clearedJob .single none .start))) := by
    apply Protocol.alone_begins
    exact .inr (.inr ⟨"item-1", rfl⟩)
  have hvalued := job_values rfl rfl rfl hbegun
  refine Protocol.alone_commits hvalued ⟨.rebuild _ false [cleared] (clearedValues none) rfl, ?_, ?_⟩
  · intro record hown
    cases hown
  · intro isNew raws done hphase v hv htrust record hrecord
    cases hrecord

/-- The tables after the invalidation of the device. -/
def projectedInvalidated (record : ControlDeviceInvalidation) : DeviceTables :=
  { projectedTrusted with
    invalidations := projectedTrusted.invalidations ++ [record]
    observations := replaceOwned (·.itemId) "item-1" projectedTrusted.observations
      (valuedRows "item-1" (clearedValues (some record)))
    status := Function.update projectedTrusted.status "item-1" (some .upToDate) }

theorem projectedInvalidated_reachable {record : ControlDeviceInvalidation}
    (hdevice : record.deviceId ≠ "") (hfound : foundItems projectedTrusted record = ["item-1"]) :
    ((deviceProtocol {}).restrict Caught).Reachable
      (World.quiet projectedTrusted) (World.quiet (projectedInvalidated record)) := by
  have hbegun : ((deviceProtocol {}).restrict Caught).Reachable (World.quiet projectedTrusted)
      (Protocol.alone projectedTrusted (.invalidates none record)) := by
    apply Protocol.alone_begins
    exact .inr (.inl ⟨none, record, rfl, hdevice, by simp⟩)
  have hfinds : ((deviceProtocol {}).restrict Caught).Reachable (World.quiet projectedTrusted)
      (Protocol.alone projectedTrusted (.found none record ["item-1"])) := by
    refine Protocol.alone_moves hbegun ?_
    rw [← hfound]
    exact .finds none record
  have hjob := Protocol.alone_moves hfinds (.rebuildsFirst record "item-1" [])
  have hvalued := job_values rfl rfl rfl hjob
  refine Protocol.alone_commits hvalued
    ⟨.rebuild _ false [cleared] (clearedValues (some record)) rfl, ?_, ?_⟩
  · intro own hown obs hobs hcovers htrust
    exact .inl (List.mem_cons.mpr (.inl (valuedRows_trusted hobs).1))
  · intro isNew raws done hphase v hv htrust recorded hrecorded
    cases hrecorded

/-- An invalidation after the rebuild finds the item. -/
theorem invalidations_kept_one_item :
    NoneLost (projectedInvalidated (deviceRecord deviceOff 100)) := by
  have hfound : foundItems projectedTrusted (deviceRecord deviceOff 100) = ["item-1"] := by
    decide +kernel
  have hdevice : (deviceRecord deviceOff 100).deviceId ≠ "" := by decide
  exact invalidations_kept unprojected_valid unprojected_noneLost
    (projectedTrusted_reachable.trans (projectedInvalidated_reachable hdevice hfound)) fun _ => rfl

/-- The rebuild values the inspection, the invalidation finds no item and is committed, and then the
rebuild commits the trusted observation. -/
theorem invalidation_overtakes_rebuild : ¬ ∀ (config : Configuration) (start : DeviceTables)
    (w : DeviceWorld), TablesValid start → NoneLost start →
    (deviceProtocol config).Reachable (World.quiet start) w → (∀ i, w.flight i = none) →
    NoneLost w.committed := by
  intro h
  have hbegun : ((deviceProtocol {}).restrict Caught).Reachable (World.quiet unprojected)
      (Protocol.alone unprojected (.rebuilds (clearedJob .single none .start))) := by
    apply Protocol.alone_begins
    exact .inr (.inr ⟨"item-1", rfl⟩)
  have hvalued := Protocol.reachable_of_restrict (job_values rfl rfl rfl hbegun)
  have hbegins : (deviceProtocol {}).begins (.invalidates none (deviceRecord deviceOff 100)) :=
    .inr (.inl ⟨none, _, rfl, by decide, by simp⟩)
  have hboth := Protocol.both_begins hvalued hbegins
  have hfinds := Protocol.both_moves hboth (.finds none (deviceRecord deviceOff 100))
  have hrecorded := Protocol.both_commits hfinds (.human (deviceRecord deviceOff 100))
  have hlost := Protocol.alone_commits hrecorded
    (.rebuild _ false [cleared] (clearedValues none) rfl)
  have hnone := h {} unprojected _ unprojected_valid unprojected_noneLost hlost fun _ => rfl
  have htrusted : ∃ obs ∈ valuedRows "item-1" (clearedValues none), obs.itemId = "item-1" ∧
      obs.trustStatus = .trusted ∧ invalidationCovers (deviceRecord deviceOff 100)
        obs.controlDeviceId obs.occurredAt = true := by decide +kernel
  obtain ⟨obs, hobs, hitem, htrust, hcovers⟩ := htrusted
  rcases hnone obs (List.mem_append_right _ hobs) (deviceRecord deviceOff 100)
    (List.mem_append_left _ (List.mem_append_right _ (List.mem_singleton.mpr rfl))) hcovers with hne | ⟨status, hstatus, hmarked⟩
  · exact hne htrust
  · have hup : status = .upToDate := by
      rw [hitem] at hstatus
      exact (Option.some.inj hstatus).symm
    exact hmarked hup

end TraceQ.Properties
