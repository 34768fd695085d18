import TraceQ.Api.EventSources
import TraceQ.Library.ChangeLog
import TraceQ.Properties.Acceptance

/-! # What the administration of a source means for its events

The log tells what the sources were at every commit. An event of a source with a shared secret is accepted
under the source as it is at the commit; an event of a source that signs its requests, under the source as
it was when the nonce was committed, since the lock ends there.
-/
namespace TraceQ.Properties
open Api Ingestion Tables Transactions Security ChangeLog
set_option autoImplicit false
set_option maxHeartbeats 250000

variable {g : Gateway}

/-! ## Statement -/

/-- The sources after an entry, but for the sequence tracking. -/
def afterEntry (sources : List EventSource) : LogEntry → List EventSource
  | .created row => sources ++ [row.identity]
  | .patched sourceId changes =>
      modifyWhere (fun row => decide (row.sourceId = sourceId)) changes.apply sources
  | .accepted _ _ _ => sources

/-- The sources as the log leaves them. -/
def sourcesAfter (start : List EventSource) (log : List LogEntry) : List EventSource :=
  log.foldl afterEntry (start.map EventSource.identity)

/-- An accepted event fits its source, which is that of the log before it, or of an earlier time if the
source signs its requests. A source is created once, and what is patched is there. -/
def Fitting (g : Gateway) (start : List EventSource) (before : List LogEntry) : LogEntry → Prop
  | .accepted source event now => source.usable now = true ∧ checkScope source event = .ok () ∧
      ∃ front, front <+: before ∧ source.identity ∈ sourcesAfter start front ∧
        (source.authMethod = .sharedSecretLegacy → front = before)
  | .created row => row.sourceId ∉ (sourcesAfter start before).map (·.sourceId) ∧
      ∃ body random, row = createdSource g.tokenHash body random
  | .patched sourceId changes => sourceId ∈ (sourcesAfter start before).map (·.sourceId) ∧
      ∃ loaded body, changes = changesOf loaded body

/-! ## Sources along the log -/

theorem sourcesAfter_concat (start : List EventSource) (log : List LogEntry) (entry : LogEntry) :
    sourcesAfter start (log ++ [entry]) = afterEntry (sourcesAfter start log) entry := by
  rw [sourcesAfter, List.foldl_append]
  rfl

@[simp] theorem identity_sourceId (source : EventSource) : source.identity.sourceId = source.sourceId := rfl

@[simp] theorem apply_sourceId (changes : SourceChanges) (row : EventSource) :
    (changes.apply row).sourceId = row.sourceId := rfl

@[simp] theorem apply_identity (changes : SourceChanges) (row : EventSource) :
    (changes.apply row).identity = changes.apply row.identity := rfl

theorem map_identity_patch (sourceId : String) (changes : SourceChanges) (sources : List EventSource) :
    (modifyWhere (fun row => decide (row.sourceId = sourceId)) changes.apply sources).map
        EventSource.identity =
      modifyWhere (fun row => decide (row.sourceId = sourceId)) changes.apply
        (sources.map EventSource.identity) := by
  simp only [modifyWhere, List.map_map]
  refine List.map_congr_left fun row _ => ?_
  by_cases hid : row.sourceId = sourceId
  · simp [hid]
  · simp [hid]

/-- Only the patch of a source changes its row, and only if it changes something. -/
theorem mem_after_patch {sources : List EventSource} {source : EventSource} {sourceId : String}
    {changes : SourceChanges} (h : changes ≠ {} → source.sourceId ≠ sourceId) (hmem : source ∈ sources) :
    source ∈ afterEntry sources (.patched sourceId changes) := by
  refine mem_modifyWhere.mpr ⟨source, hmem, ?_⟩
  by_cases hempty : changes = {}
  · subst hempty
    simp [SourceChanges.apply]
  · simp [h hempty]

theorem settled_identities (store : Store) (source : EventSource) (incoming : IncomingEvent)
    (call : IngestCall) : (settled g store source incoming call).sources.map EventSource.identity =
      store.sources.map EventSource.identity := by
  unfold settled settledSources
  dsimp only
  split
  · rfl
  · exact ingestAdmitted_identities g store source incoming call

theorem acceptedEntry_cases (store : Store) (source : EventSource) (incoming : IncomingEvent)
    (call : IngestCall) : acceptedEntry g store source incoming call = [] ∨
      acceptedEntry g store source incoming call = [.accepted source incoming.event call.now] := by
  unfold acceptedEntry
  split
  · split
    · exact .inr rfl
    · exact .inl rfl
  · exact .inl rfl

theorem admission_scope {source : EventSource} {value : Json} {incoming : IncomingEvent}
    (h : admission g source value = .ok incoming) : checkScope source incoming.event = .ok () := by
  obtain ⟨found, -, hrest⟩ := Results.bind_ok.mp h
  obtain ⟨⟨⟩, hscope, hsame⟩ := Results.bind_ok.mp hrest
  rwa [Results.pure_ok.mp hsame] at hscope

/-! ## What a request knows -/

/-- The call and the source it has read. -/
def sourceRead : RequestTransaction → Option (IngestCall × EventSource)
  | .loaded call source | .signed call source _ | .authenticated call source => some (call, source)
  | _ => none

/-- The source a request has read was that of the log at some time, and still is while its row is locked. -/
def KnowsSource (start : List EventSource) (log : List LogEntry) (l : RequestTransaction) : Prop :=
  ∀ call source, sourceRead l = some (call, source) → source.usable call.now = true ∧
    ∃ front, front <+: log ∧ source.identity ∈ sourcesAfter start front ∧
      (l.locksSource = some source.sourceId → front = log)

theorem knowsSource_none (start : List EventSource) (log : List LogEntry) {l : RequestTransaction}
    (h : sourceRead l = none) : KnowsSource start log l := by
  intro call source hread
  rw [h] at hread
  cases hread

/-- It goes on with the source it has read. -/
theorem KnowsSource.next {start : List EventSource} {log : List LogEntry} {l l' : RequestTransaction}
    (h : KnowsSource start log l) (hread : sourceRead l' = sourceRead l)
    (hlocks : ∀ call source, sourceRead l = some (call, source) → l.locksSource = some source.sourceId) :
    KnowsSource start log l' := by
  intro call source hsource
  rw [hread] at hsource
  obtain ⟨husable, front, hfront, hmem, hlocked⟩ := h call source hsource
  have hnow := hlocked (hlocks call source hsource)
  exact ⟨husable, front, hfront, hmem, fun _ => hnow⟩

/-- An entry that keeps the locked source. -/
theorem KnowsSource.grows {start : List EventSource} {log : List LogEntry} {l : RequestTransaction}
    {entry : LogEntry} (h : KnowsSource start log l)
    (hkeeps : ∀ source : EventSource, l.locksSource = some source.sourceId →
      source.identity ∈ sourcesAfter start log → source.identity ∈ afterEntry (sourcesAfter start log) entry) :
    KnowsSource start (log ++ [entry]) l := by
  intro call source hread
  obtain ⟨husable, front, hfront, hmem, hlocked⟩ := h call source hread
  refine ⟨husable, ?_⟩
  by_cases hlock : l.locksSource = some source.sourceId
  · refine ⟨log ++ [entry], List.prefix_rfl, ?_, fun _ => rfl⟩
    rw [sourcesAfter_concat]
    rw [hlocked hlock] at hmem
    exact hkeeps source hlock hmem
  · exact ⟨front, hfront.trans (List.prefix_append _ _), hmem, fun h => absurd h hlock⟩

/-- What a call of an endpoint knows. -/
def Knows (g : Gateway) (start : List EventSource) (log : List LogEntry) : Administration → Prop
  | .request l => KnowsSource start log l
  | .patching sourceId changes => sourceId ∈ (sourcesAfter start log).map (·.sourceId) ∧
      ∃ loaded body, changes = changesOf loaded body
  | .creating row => ∃ body random, row = createdSource g.tokenHash body random
  | .patch _ _ | .create _ _ | .refused _ => True

/-- A patch writes no column that `column` reads. -/
theorem map_afterEntry_patched {α : Type} {column : EventSource → α} (sources : List EventSource)
    (sourceId : String) {changes : SourceChanges} (hcolumn : ∀ row, column (changes.apply row) = column row) :
    (afterEntry sources (.patched sourceId changes)).map column = sources.map column :=
  map_modifyWhere hcolumn sources

/-- What no patch writes, and no creation takes away. -/
theorem afterEntry_column {α : Type} {column : EventSource → α}
    (hcolumn : ∀ (changes : SourceChanges) (row : EventSource), column (changes.apply row) = column row)
    (sources : List EventSource) (entry : LogEntry) :
    sources.map column <+: (afterEntry sources entry).map column := by
  cases entry with
  | created row =>
    rw [afterEntry, List.map_append]
    exact List.prefix_append _ _
  | patched sourceId changes => rw [map_afterEntry_patched sources sourceId (hcolumn changes)]
  | accepted source event now => exact List.prefix_rfl

theorem afterEntry_ids (sources : List EventSource) (entry : LogEntry) :
    sources.map (·.sourceId) <+: (afterEntry sources entry).map (·.sourceId) :=
  afterEntry_column (fun _ _ => rfl) sources entry

theorem Knows.grows {start : List EventSource} {log : List LogEntry} {l : Administration} {entry : LogEntry}
    (h : Knows g start log l) (hkeeps : ∀ source : EventSource, l.locksSource = some source.sourceId →
      source.identity ∈ sourcesAfter start log → source.identity ∈ afterEntry (sourcesAfter start log) entry) :
    Knows g start (log ++ [entry]) l := by
  cases l with
  | request r => exact KnowsSource.grows h hkeeps
  | patching sourceId changes =>
    refine ⟨?_, h.2⟩
    rw [sourcesAfter_concat]
    exact (afterEntry_ids _ entry).subset h.1
  | creating row => exact h
  | _ => trivial

/-! ## Steps -/

/-- The log tells what the sources are, and every entry fits. -/
structure Told (g : Gateway) (start : List EventSource) (s : Administered) : Prop where
  sources : s.sources.map EventSource.identity = sourcesAfter start s.log
  fitting : Along (Fitting g start) s.log

abbrev AdminHeld (g : Gateway) (start : List EventSource) (w : AdminWorld) : Prop :=
  Protocol.Held (Told g start) (fun s => Knows g start s.log) (fun _ _ => True) w

theorem Told.ids {start : List EventSource} {s : Administered} (h : Told g start s) :
    s.sources.map (·.sourceId) = (sourcesAfter start s.log).map (·.sourceId) := by
  rw [← h.sources, List.map_map]
  rfl

theorem request_moves {start : List EventSource} {w : AdminWorld} {i : ℕ} {l l' : RequestTransaction}
    (htold : Told g start w.committed) (h : KnowsSource start w.committed.log l)
    (hmove : RequestMoves g (requestsOf w) i l l') : KnowsSource start w.committed.log l' := by
  cases hmove with
  | loads call sourceId source hheader hfound hfree husable =>
    rintro _ _ ⟨⟩
    refine ⟨husable, w.committed.log, List.prefix_rfl, ?_, fun _ => rfl⟩
    rw [← htold.sources]
    exact List.mem_map_of_mem (List.mem_of_find?_eq_some hfound)
  | signs call source nonce hmethod hsigned =>
    exact h.next rfl fun _ _ hread => by cases hread; rfl
  | trusts call source token hash hmethod htoken hhash hsame =>
    exact h.next rfl fun _ _ hread => by cases hread; rfl
  | _ => exact knowsSource_none _ _ rfl

theorem request_commits {start : List EventSource} {w : AdminWorld} {i : ℕ} {l : RequestTransaction}
    {passed : Passed} {next : Option RequestTransaction} (h : KnowsSource start w.committed.log l)
    (hcommit : RequestCommits g (requestsOf w) i l passed next)
    (hbefore : ∀ call source, l ≠ .authenticated call source) (hrequest : l ≠ .elsewhere) :
    passed.store.sources = w.committed.sources ∧
      ∀ m, next = some m → KnowsSource start w.committed.log m := by
  cases hcommit with
  | alerts call source alerts hmethod hreplay =>
    refine ⟨rfl, fun m hm => ?_⟩
    cases hm
    exact knowsSource_none _ _ rfl
  | passes call source nonce hkey =>
    refine ⟨rfl, fun m hm => ?_⟩
    cases hm
    exact h.next rfl fun _ _ hread => by cases hread; rfl
  | records call error =>
    refine ⟨?_, fun m hm => by cases hm⟩
    unfold recordRejectedAttempt
    split <;> rfl
  | ingests call source => exact absurd rfl (hbefore call source)
  | edits => exact absurd rfl hrequest

/-- What a commit that appends one entry has to keep. -/
theorem told_concat {start : List EventSource} {w : AdminWorld} {i : ℕ} (h : AdminHeld g start w)
    (passed : Passed) (entry : LogEntry)
    (hsources : passed.store.sources.map EventSource.identity =
      afterEntry (sourcesAfter start w.committed.log) entry)
    (hfits : Fitting g start w.committed.log entry)
    (hkeeps : ∀ source : EventSource, source.identity ∈ sourcesAfter start w.committed.log →
      (∃ j m, j ≠ i ∧ w.flight j = some m ∧ m.locksSource = some source.sourceId) →
      source.identity ∈ afterEntry (sourcesAfter start w.committed.log) entry) :
    Told g start { passed := passed, log := w.committed.log ++ [entry] } ∧
      w.Others i (Knows g start (w.committed.log ++ [entry])) := by
  refine ⟨⟨?_, along_concat.mpr ⟨h.shared.fitting, hfits⟩⟩, fun j m hj hm => ?_⟩
  · rw [sourcesAfter_concat]
    exact hsources
  · exact (h.each j m hm).grows fun source hlock hmem => hkeeps source hmem ⟨j, m, hj, hm, hlock⟩

theorem admin_moves {start : List EventSource} {w : AdminWorld} {i : ℕ} {l l' : Administration}
    (h : AdminHeld g start w) (hl : w.flight i = some l) (hmove : AdminMoves g w i l l') :
    Knows g start w.committed.log l' := by
  cases hmove with
  | request r r' hrequest => exact request_moves h.shared (h.each i _ hl) hrequest
  | loadsPatch sourceId body loaded hfound =>
    refine ⟨?_, loaded, body, rfl⟩
    rw [← h.shared.ids]
    have hid : loaded.sourceId = sourceId := by simpa using List.find?_some hfound
    exact hid ▸ List.mem_map_of_mem (List.mem_of_find?_eq_some hfound)
  | prepares body random hnone => exact ⟨body, random, rfl⟩
  | _ => trivial

theorem admin_step {start : List EventSource} {w w' : AdminWorld} (h : AdminHeld g start w)
    (hstep : (administering g).Step w w') : AdminHeld g start w' := by
  refine h.step (fun _ _ _ => trivial) ?_ ?_ ?_ hstep
  · intro l hl
    refine ⟨?_, fun _ => trivial⟩
    cases (show l.Begins from hl) with
    | request call => exact knowsSource_none _ _ rfl
    | _ => trivial
  · exact fun i l l' hl hmove => ⟨admin_moves h hl hmove, fun _ _ _ _ => trivial⟩
  · intro i l s next hl hcommit
    cases (show AdminCommits g w i l s next from hcommit) with
    | request r passed after hrequest hbefore hcalls =>
      obtain ⟨hsources, hnext⟩ := request_commits (h.each i _ hl) hrequest hbefore hcalls
      refine ⟨⟨?_, h.shared.fitting⟩, fun j m _ hm => h.each j m hm, fun m hm => ⟨?_, fun _ _ _ _ => trivial⟩⟩
      · show passed.store.sources.map EventSource.identity = _
        rw [hsources]
        exact h.shared.sources
      · obtain ⟨r', hr', rfl⟩ := Option.map_eq_some_iff.mp hm
        exact hnext r' hr'
    | settles call source incoming hadmitted hwaits =>
      have hsources : (settled g w.committed.passed.store source incoming call).sources.map
          EventSource.identity = sourcesAfter start w.committed.log :=
        (settled_identities _ source incoming call).trans h.shared.sources
      rcases acceptedEntry_cases (g := g) w.committed.passed.store source incoming call with hnone | hentry
      · rw [hnone, List.append_nil]
        exact ⟨⟨hsources, h.shared.fitting⟩, fun j m _ hm => h.each j m hm, fun m hm => by cases hm⟩
      · rw [hentry]
        obtain ⟨husable, front, hfront, hmem, hlocked⟩ := h.each i _ hl call source rfl
        have hfits : Fitting g start w.committed.log (.accepted source incoming.event call.now) :=
          ⟨husable, admission_scope hadmitted, front, hfront, hmem, fun hmethod => hlocked (if_pos hmethod)⟩
        obtain ⟨htold, hothers⟩ := told_concat (i := i) h { w.committed.passed with
          store := settled g w.committed.passed.store source incoming call }
          (.accepted source incoming.event call.now) hsources hfits fun source hmem _ => hmem
        exact ⟨htold, hothers, fun m hm => by cases hm⟩
    | patches sourceId changes hwaits =>
      have hsources : (modifyWhere (fun row => decide (row.sourceId = sourceId)) changes.apply
          w.committed.sources).map EventSource.identity =
            afterEntry (sourcesAfter start w.committed.log) (.patched sourceId changes) := by
        rw [map_identity_patch, h.shared.sources]
        rfl
      have hkeeps : ∀ source : EventSource, source.identity ∈ sourcesAfter start w.committed.log →
          (∃ j m, j ≠ i ∧ w.flight j = some m ∧ m.locksSource = some source.sourceId) →
          source.identity ∈ afterEntry (sourcesAfter start w.committed.log) (.patched sourceId changes) := by
        rintro source hmem ⟨j, m, hj, hm, hlock⟩
        refine mem_after_patch (fun hchanges hid => ?_) hmem
        exact hwaits hchanges j m hj hm (hlock.trans (congrArg some hid))
      obtain ⟨htold, hothers⟩ := told_concat (i := i) h { w.committed.passed with
        store := { w.committed.passed.store with sources := _ } } _ hsources (h.each i _ hl) hkeeps
      exact ⟨htold, hothers, fun m hm => by cases hm⟩
    | creates row hkey =>
      have hsources : (w.committed.sources ++ [row]).map EventSource.identity =
          afterEntry (sourcesAfter start w.committed.log) (.created row) := by
        rw [List.map_append, h.shared.sources]
        rfl
      have hfresh : row.sourceId ∉ (sourcesAfter start w.committed.log).map (·.sourceId) := by
        rw [← h.shared.ids]
        intro hmem
        obtain ⟨old, hold, hid⟩ := List.mem_map.mp hmem
        have hmiss := List.find?_eq_none.mp hkey old hold
        simp [hid] at hmiss
      obtain ⟨htold, hothers⟩ := told_concat (i := i) h { w.committed.passed with
        store := { w.committed.passed.store with sources := _ } } _ hsources ⟨hfresh, h.each i _ hl⟩
        fun source hmem _ => List.mem_append_left _ hmem
      exact ⟨htold, hothers, fun m hm => by cases hm⟩

theorem admin_held {start : Store} {w : AdminWorld}
    (h : (administering g).Reachable (World.quiet { passed := { store := start } }) w) :
    AdminHeld g start.sources w :=
  Protocol.invariant (fun _ _ => admin_step) (Protocol.held_quiet ⟨rfl, along_nil _⟩) h

/-- However requests, patches and creations interleave: an event is accepted only in the scope of a usable
source, which is the one the log tells of right then, or at an earlier time if the source signs its
requests; and the log always tells what the sources are. -/
theorem accepted_in_scope {start : Store} {w : AdminWorld}
    (h : (administering g).Reachable (World.quiet { passed := { store := start } }) w) :
    w.committed.sources.map EventSource.identity = sourcesAfter start.sources w.committed.log ∧
      ∀ before source event now later,
        w.committed.log = before ++ .accepted source event now :: later →
          source.usable now = true ∧ checkScope source event = .ok () ∧
            ∃ front, front <+: before ∧ source.identity ∈ sourcesAfter start.sources front ∧
              (source.authMethod = .sharedSecretLegacy → front = before) := by
  have hheld := admin_held h
  exact ⟨hheld.shared.sources, fun before source event now later hlog =>
    hheld.shared.fitting before _ later hlog⟩

/-! ## Sources out of use -/

/-- The patch takes the source out of use. -/
def Disabling (changes : SourceChanges) : Prop :=
  changes.enabled = some false ∨ ∃ status, changes.status = some status ∧ status ≠ .active

def OutOfUse (source : EventSource) : Prop := source.enabled = false ∨ source.status ≠ .active

theorem not_usable {source : EventSource} (h : OutOfUse source) (now : Instant) :
    source.usable now = false := by
  rcases h with henabled | hstatus
  · simp [EventSource.usable, henabled]
  · simp [EventSource.usable, hstatus]

theorem outOfUse_apply {changes : SourceChanges} (h : Disabling changes) (row : EventSource) :
    OutOfUse (changes.apply row) := by
  rcases h with henabled | ⟨status, hstatus, hinactive⟩
  · exact .inl (by simp [SourceChanges.apply, henabled])
  · exact .inr (by simpa [SourceChanges.apply, hstatus] using hinactive)

/-- Until the next patch of the source nothing brings it back. -/
theorem outOfUse_until_patched {start : List EventSource} {before mid : List LogEntry} {sourceId : String}
    {changes : SourceChanges} (hdisabling : Disabling changes)
    (hquiet : ∀ other, LogEntry.patched sourceId other ∉ mid)
    (hfits : Along (Fitting g start) (before ++ .patched sourceId changes :: mid)) :
    sourceId ∈ (sourcesAfter start (before ++ .patched sourceId changes :: mid)).map (·.sourceId) ∧
      ∀ row ∈ sourcesAfter start (before ++ .patched sourceId changes :: mid),
        row.sourceId = sourceId → OutOfUse row := by
  induction mid using List.reverseRecOn with
  | nil =>
    rw [sourcesAfter_concat]
    refine ⟨(afterEntry_ids _ _).subset (hfits before _ [] rfl).1, fun row hrow hid => ?_⟩
    obtain ⟨old, hold, rfl⟩ := mem_modifyWhere.mp hrow
    by_cases hsame : old.sourceId = sourceId
    · rw [decide_eq_true hsame, if_pos rfl]
      exact outOfUse_apply hdisabling old
    · simp [hsame] at hid
  | append_singleton front entry ih =>
    have hconcat : before ++ .patched sourceId changes :: (front ++ [entry]) =
        (before ++ .patched sourceId changes :: front) ++ [entry] := by simp
    rw [hconcat] at hfits ⊢
    obtain ⟨hearlier, hentry⟩ := along_concat.mp hfits
    obtain ⟨hknown, hrows⟩ := ih (fun other hin => hquiet other (List.mem_append_left _ hin)) hearlier
    rw [sourcesAfter_concat]
    refine ⟨(afterEntry_ids _ _).subset hknown, fun row hrow hid => ?_⟩
    cases entry with
    | created new =>
      rcases List.mem_append.mp hrow with hold | hnew
      · exact hrows row hold hid
      · -- the id of a new source is not there yet
        rw [List.mem_singleton.mp hnew] at hid
        exact absurd (hid ▸ hknown) hentry.1
    | patched other otherChanges =>
      have hother : other ≠ sourceId := by
        rintro rfl
        exact hquiet otherChanges (List.mem_append_right _ (List.mem_singleton_self _))
      have hold : row ∈ sourcesAfter start (before ++ .patched sourceId changes :: front) := by
        refine (mem_modifyWhere_other ?_ ?_).mp hrow
        · exact fun _ h => h
        · rw [hid]
          exact Ne.symm hother
      exact hrows row hold hid
    | accepted source event now => exact hrows row hrow hid

/-- Between a patch that disables, suspends, revokes or expires a source and the next patch of it, no event
of it is accepted if it has a shared secret, however requests and patches interleave. -/
theorem disabled_source_silent {start : Store} {w : AdminWorld}
    (h : (administering g).Reachable (World.quiet { passed := { store := start } }) w)
    {before mid later : List LogEntry} {sourceId : String} {changes : SourceChanges} {source : EventSource}
    {event : EventEnvelope} {now : Instant}
    (hlog : w.committed.log = before ++ .patched sourceId changes ::
      (mid ++ .accepted source event now :: later)) (hdisabling : Disabling changes)
    (hquiet : ∀ other, LogEntry.patched sourceId other ∉ mid)
    (hmethod : source.authMethod = .sharedSecretLegacy) : source.sourceId ≠ sourceId := by
  intro hid
  have hfits := (admin_held h).shared.fitting
  rw [hlog] at hfits
  have hsplit : before ++ LogEntry.patched sourceId changes :: (mid ++ .accepted source event now :: later) =
      (before ++ .patched sourceId changes :: mid) ++ .accepted source event now :: later := by simp
  rw [hsplit] at hfits
  obtain ⟨husable, -, front, -, hmem, hnow⟩ := hfits _ _ later rfl
  rw [hnow hmethod] at hmem
  have hout := (outOfUse_until_patched hdisabling hquiet (along_of_append hfits)).2 _ hmem hid
  have hunusable : source.usable now = false := not_usable (show OutOfUse source from hout) now
  rw [hunusable] at husable
  cases husable

/-! ### One source is disabled and another one sends -/

section Alone
variable {c : Administered} {start : AdminWorld}

/-- A call of a source with a shared secret that nothing runs beside. -/
theorem trusted_alone {call : IngestCall} {source : EventSource} {token hash : String}
    {incoming : IncomingEvent} (h : (administering g).Reachable start (World.quiet c))
    (hheader : pyOr call.headerSourceId none = some source.sourceId)
    (hfound : findSource c.passed.store source.sourceId = some source)
    (husable : source.usable call.now = true) (hmethod : source.authMethod = .sharedSecretLegacy)
    (htoken : pyOr call.sourceToken none = some token) (hhash : pyOr source.tokenHash none = some hash)
    (hsame : hash = g.tokenHash token) (hadmitted : admission g source call.value = .ok incoming) :
    (administering g).Reachable start (World.quiet
      { passed := { c.passed with store := settled g c.passed.store source incoming call }
        log := c.log ++ acceptedEntry g c.passed.store source incoming call }) := by
  have hothers : ∀ l : Administration, ((requestsOf (Protocol.alone c l)).Others 0
      fun m => m.locksSource ≠ some source.sourceId) :=
    fun l => Protocol.others_view (Protocol.others_alone _ _ _)
  have hasked := h.trans (Protocol.alone_begins (p := administering g) c (.request call))
  have hloaded := Protocol.alone_moves hasked
    (.request _ _ (.loads call source.sourceId source hheader hfound (hothers _) husable))
  have htrusted := Protocol.alone_moves hloaded
    (.request _ _ (.trusts call source token hash hmethod htoken hhash hsame))
  exact Protocol.alone_commits htrusted
    (.settles call source incoming hadmitted fun _ => Protocol.others_alone _ _ _)

theorem patched_alone {sourceId : String} {loaded : EventSource} (body : SourcePatch)
    (h : (administering g).Reachable start (World.quiet c))
    (hfound : findSource c.passed.store sourceId = some loaded) :
    (administering g).Reachable start (World.quiet
      { passed := { c.passed with store := { c.passed.store with
          sources := modifyWhere (fun row => decide (row.sourceId = sourceId)) (changesOf loaded body).apply
            c.sources } }
        log := c.log ++ [.patched sourceId (changesOf loaded body)] }) := by
  have hasked := h.trans (Protocol.alone_begins (p := administering g) c (.patch sourceId body))
  have hloaded := Protocol.alone_moves hasked (.loadsPatch sourceId body loaded hfound)
  exact Protocol.alone_commits hloaded (.patches sourceId _ fun _ => Protocol.others_alone _ _ _)

end Alone

def secondSource : EventSource := { tokenSource with sourceId := "plc-2" }

def suspension : SourcePatch := { status := some .suspended }

/-- The second source is suspended. -/
def suspendedStore : Store := { sources := [tokenSource, { secondSource with status := .suspended }] }

theorem suspendedStore_reachable : (administering plainGateway).Reachable
    (World.quiet { passed := { store := { sources := [tokenSource, secondSource] } } })
    (World.quiet
      { passed := { store := suspendedStore }
        log := [.patched "plc-2" { status := some .suspended }] }) := by
  have hstart : (administering plainGateway).Reachable
      (World.quiet { passed := { store := { sources := [tokenSource, secondSource] } } })
      (World.quiet { passed := { store := { sources := [tokenSource, secondSource] } } }) :=
    Relation.ReflTransGen.refl
  have hfound : findSource { sources := [tokenSource, secondSource] } "plc-2" = some secondSource := by
    decide +kernel
  exact patched_alone suspension hstart hfound

def stateEntry : LogEntry := .accepted tokenSource (readEvent none).event 21000000

theorem stateEntry_reachable : (administering plainGateway).Reachable
    (World.quiet { passed := { store := { sources := [tokenSource, secondSource] } } })
    (World.quiet
      { passed := { store := settled plainGateway suspendedStore tokenSource (readEvent none) (tokenCall .null) }
        log := [.patched "plc-2" { status := some .suspended }, stateEntry] }) := by
  have hentry : acceptedEntry plainGateway suspendedStore tokenSource (readEvent none) (tokenCall .null) =
      [stateEntry] := by
    rcases acceptedEntry_cases (g := plainGateway) suspendedStore tokenSource (readEvent none)
      (tokenCall .null) with hnone | hentry
    · have hlength : (acceptedEntry plainGateway suspendedStore tokenSource (readEvent none)
          (tokenCall .null)).length = 1 := by decide +kernel
      rw [hnone] at hlength
      cases hlength
    · exact hentry
  have hheader : pyOr (tokenCall .null).headerSourceId none = some tokenSource.sourceId := by decide
  have hfound : findSource suspendedStore tokenSource.sourceId = some tokenSource := by decide +kernel
  have htoken : pyOr (tokenCall .null).sourceToken none = some "secret" := by decide
  have hhash : pyOr tokenSource.tokenHash none = tokenSource.tokenHash := by decide
  have hadmitted : admission plainGateway tokenSource (tokenCall .null).value = .ok (readEvent none) := by rfl
  have hcall := trusted_alone suspendedStore_reachable hheader hfound (by decide +kernel) rfl htoken hhash rfl
    hadmitted
  rw [hentry] at hcall
  exact hcall

theorem accepted_in_scope_beside_suspended : tokenSource.usable 21000000 = true ∧
    checkScope tokenSource (readEvent none).event = .ok () ∧
      ∃ front, front <+: [.patched "plc-2" { status := some .suspended }] ∧
        tokenSource.identity ∈ sourcesAfter [tokenSource, secondSource] front ∧
          (tokenSource.authMethod = .sharedSecretLegacy →
            front = [.patched "plc-2" { status := some .suspended }]) :=
  (accepted_in_scope stateEntry_reachable).2 [.patched "plc-2" { status := some .suspended }] tokenSource
    (readEvent none).event 21000000 [] rfl

/-- Behind the suspension of one source stands an accepted event of the other one. -/
theorem disabled_source_silent_other : ∃ w : AdminWorld, (administering plainGateway).Reachable
    (World.quiet { passed := { store := { sources := [tokenSource, secondSource] } } }) w ∧
      w.committed.log = [.patched "plc-2" { status := some .suspended }, stateEntry] ∧
      tokenSource.sourceId ≠ "plc-2" :=
  ⟨_, stateEntry_reachable, rfl,
    disabled_source_silent stateEntry_reachable (show _ = [] ++ _ :: ([] ++ stateEntry :: []) from rfl)
      (.inr ⟨.suspended, rfl, by decide⟩) (by simp) rfl⟩

/-! ## What the rows keep -/

/-- Sorted without repetitions, as `sorted(set(values))` leaves them. -/
abbrev Listed (values : List String) : Prop := values.Pairwise (· < ·)

/-- The lists of a registered source. -/
structure Registered (source : EventSource) : Prop where
  nonempty : source.allowedEventTypes ≠ []
  known : ∀ eventType ∈ source.allowedEventTypes, eventType ∈ supportedEventTypes
  eventTypes : Listed source.allowedEventTypes
  lineIds : Listed source.allowedLineIds
  stationIds : Listed source.allowedStationIds

/-- The columns no endpoint writes. -/
def fixedColumns (source : EventSource) : EventSource :=
  { source with
    enabled := true, status := .active, allowedEventTypes := [], allowedLineIds := [], allowedStationIds := []
    lastSourceSequence := none }

theorem mem_sortedSet {values : List String} {value : String} : value ∈ sortedSet values ↔ value ∈ values := by
  rw [sortedSet, List.mem_insertionSort, List.mem_dedup]

theorem listed_sortedSet (values : List String) : Listed (sortedSet values) := by
  have hsorted : (sortedSet values).Pairwise (· ≤ ·) := List.pairwise_insertionSort _ _
  have hnodup : (sortedSet values).Nodup :=
    (List.perm_insertionSort _ _).nodup_iff.mpr (List.nodup_dedup values)
  exact hsorted.imp₂ (fun _ _ hle hne => lt_of_le_of_ne hle hne) hnodup

theorem registered_created (tokenHash : String → String) (body : SourceCreate) (random : String) :
    Registered (createdSource tokenHash body random) := by
  refine ⟨fun hnil => ?_, fun eventType hin => body.known eventType (mem_sortedSet.mp hin),
    listed_sortedSet _, listed_sortedSet _, listed_sortedSet _⟩
  obtain ⟨eventType, hin⟩ := List.exists_mem_of_ne_nil _ body.min_length
  have hsorted : eventType ∈ (createdSource tokenHash body random).allowedEventTypes := mem_sortedSet.mpr hin
  rw [hnil] at hsorted
  cases hsorted

theorem listed_getD {values : Option (List String)} {old loaded : List String} (hold : Listed old) :
    Listed (((values.map sortedSet).filter fun value => decide (value ≠ loaded)).getD old) := by
  cases hnew : (values.map sortedSet).filter fun value => decide (value ≠ loaded) with
  | none => exact hold
  | some new =>
    obtain ⟨given, -, rfl⟩ := Option.map_eq_some_iff.mp (Option.filter_eq_some_iff.mp hnew).1
    exact listed_sortedSet given

theorem registered_patched {row : EventSource} (h : Registered row) (loaded : EventSource) (body : SourcePatch) :
    Registered ((changesOf loaded body).apply row) := by
  have htypes : ((changesOf loaded body).apply row).allowedEventTypes = row.allowedEventTypes ∨
      ∃ given ∈ body.allowedEventTypes, ((changesOf loaded body).apply row).allowedEventTypes = sortedSet given := by
    cases hnew : (changesOf loaded body).allowedEventTypes with
    | none => exact .inl (by simp [SourceChanges.apply, hnew])
    | some new =>
      obtain ⟨given, hgiven, rfl⟩ := Option.map_eq_some_iff.mp (Option.filter_eq_some_iff.mp hnew).1
      exact .inr ⟨given, hgiven, by simp [SourceChanges.apply, hnew]⟩
  refine ⟨?_, ?_, listed_getD h.eventTypes, listed_getD h.lineIds, listed_getD h.stationIds⟩
  · rcases htypes with hkept | ⟨given, hgiven, hnew⟩
    · rw [hkept]
      exact h.nonempty
    · rw [hnew]
      intro hnil
      obtain ⟨eventType, hin⟩ := List.exists_mem_of_ne_nil _ (body.min_length given hgiven)
      have hsorted := mem_sortedSet.mpr hin
      rw [hnil] at hsorted
      cases hsorted
  · rcases htypes with hkept | ⟨given, hgiven, hnew⟩
    · rw [hkept]
      exact h.known
    · rw [hnew]
      exact fun eventType hin => body.known given hgiven eventType (mem_sortedSet.mp hin)

theorem afterEntry_fixed (sources : List EventSource) (entry : LogEntry) :
    sources.map fixedColumns <+: (afterEntry sources entry).map fixedColumns :=
  afterEntry_column (fun _ _ => rfl) sources entry

theorem sourcesAfter_nodup {start : List EventSource} {log : List LogEntry}
    (hfits : Along (Fitting g start) log) (hids : (start.map (·.sourceId)).Nodup) :
    ((sourcesAfter start log).map (·.sourceId)).Nodup := by
  induction log using List.reverseRecOn with
  | nil => simpa [sourcesAfter, Function.comp_def] using hids
  | append_singleton log entry ih =>
    obtain ⟨hearlier, hentry⟩ := along_concat.mp hfits
    have hnodup := ih hearlier
    rw [sourcesAfter_concat]
    cases entry with
    | created new =>
      exact nodup_map_append hnodup fun row hrow hid => hentry.1 (hid ▸ List.mem_map_of_mem hrow)
    | patched sourceId changes =>
      rw [map_afterEntry_patched (sourcesAfter start log) sourceId fun _ => rfl]
      exact hnodup
    | accepted source event now => exact hnodup

/-- A source that starts with such lists, or is created, has such lists from then on. -/
theorem sourcesAfter_registered {start : List EventSource} {log : List LogEntry} {sourceId : String}
    (hfits : Along (Fitting g start) log) (hstart : ∀ row ∈ start, row.sourceId = sourceId → Registered row) :
    ∀ row ∈ sourcesAfter start log, row.sourceId = sourceId → Registered row := by
  induction log using List.reverseRecOn with
  | nil =>
    intro row hrow hid
    obtain ⟨old, hold, rfl⟩ := List.mem_map.mp hrow
    obtain ⟨hnonempty, hknown, htypes, hlines, hstations⟩ := hstart old hold hid
    exact ⟨hnonempty, hknown, htypes, hlines, hstations⟩
  | append_singleton log entry ih =>
    obtain ⟨hearlier, hentry⟩ := along_concat.mp hfits
    have hrows := ih hearlier
    rw [sourcesAfter_concat]
    intro row hrow hid
    cases entry with
    | created new =>
      obtain ⟨-, body, random, rfl⟩ := hentry
      rcases List.mem_append.mp hrow with hold | hnew
      · exact hrows row hold hid
      · rw [List.mem_singleton.mp hnew]
        exact registered_created g.tokenHash body random
    | patched patchedId changes =>
      obtain ⟨-, loaded, body, rfl⟩ := hentry
      obtain ⟨old, hold, rfl⟩ := mem_modifyWhere.mp hrow
      split
      · rename_i hpatched
        rw [if_pos hpatched] at hid
        exact registered_patched (hrows old hold hid) loaded body
      · rename_i hother
        rw [if_neg hother] at hid
        exact hrows old hold hid
    | accepted source event now => exact hrows row hrow hid

theorem fixed_prefix (start : List EventSource) (front more : List LogEntry) :
    (sourcesAfter start front).map fixedColumns <+: (sourcesAfter start (front ++ more)).map fixedColumns := by
  induction more using List.reverseRecOn with
  | nil => rw [List.append_nil]
  | append_singleton more entry ih =>
    rw [← List.append_assoc, sourcesAfter_concat]
    exact ih.trans (afterEntry_fixed _ entry)

/-- However requests, patches and creations interleave: the ids of the sources stay distinct, what identifies
and authenticates a source never changes, and its lists stay sorted, without repetitions and of known event
types if they are to begin with or if it is created. -/
theorem sources_stay_registered {start : Store} {w : AdminWorld}
    (h : (administering g).Reachable (World.quiet { passed := { store := start } }) w)
    (hids : (start.sources.map (·.sourceId)).Nodup) :
    (w.committed.sources.map (·.sourceId)).Nodup ∧
      (∀ sourceId, (∀ row ∈ start.sources, row.sourceId = sourceId → Registered row) →
        ∀ row ∈ w.committed.sources, row.sourceId = sourceId → Registered row) ∧
      ∀ front, front <+: w.committed.log →
        (sourcesAfter start.sources front).map fixedColumns <+: w.committed.sources.map fixedColumns := by
  have htold := (admin_held h).shared
  refine ⟨htold.ids ▸ sourcesAfter_nodup htold.fitting hids, fun sourceId hstart row hrow hid => ?_,
    fun front hfront => ?_⟩
  · have hidentity : row.identity ∈ sourcesAfter start.sources w.committed.log :=
      htold.sources ▸ List.mem_map_of_mem hrow
    obtain ⟨hnonempty, hknown, htypes, hlines, hstations⟩ :=
      sourcesAfter_registered htold.fitting hstart _ hidentity hid
    exact ⟨hnonempty, hknown, htypes, hlines, hstations⟩
  · obtain ⟨more, hmore⟩ := hfront
    have hfixed : w.committed.sources.map fixedColumns =
        (sourcesAfter start.sources w.committed.log).map fixedColumns := by
      rw [← htold.sources, List.map_map]
      rfl
    rw [hfixed, ← hmore]
    exact fixed_prefix start.sources front more

theorem sources_stay_registered_suspended :
    (suspendedStore.sources.map (·.sourceId)).Nodup ∧ (∀ row ∈ suspendedStore.sources, Registered row) ∧
      [tokenSource, secondSource].map fixedColumns <+: suspendedStore.sources.map fixedColumns := by
  obtain ⟨hids, hregistered, hfixed⟩ := sources_stay_registered suspendedStore_reachable (by decide)
  refine ⟨hids, fun row hrow => hregistered row.sourceId ?_ row hrow rfl, hfixed [] List.nil_prefix⟩
  intro old hold _
  rcases List.mem_pair.mp hold with rfl | rfl
  all_goals exact ⟨by decide, by decide, by decide, by decide, by decide⟩

end TraceQ.Properties
