import TraceQ.Ingestion.Service
import TraceQ.Library.Transactions
import TraceQ.Security.Integrity

/-! # Concurrent appends to the chains

What `ingest_event` does to `raw_events` and `integrity_stream_states`, as transactions that take
their steps in any order: read the head of the stream, insert the row of a new stream, insert the
sealed event, commit. The unique keys let no two of them hold the same event id, the same place in a
stream or the same new stream. A call that is rejected, a duplicate or fails rolls back.
-/
namespace TraceQ.Ingestion
open Security Tables HashChain Transactions
set_option autoImplicit false
set_option maxHeartbeats 250000

/-- A call that has been authenticated and validated. -/
structure AppendCall where
  incoming : IncomingEvent
  receivedAt : Instant
  nonce : Bytes

abbrev AppendCall.streamId (call : AppendCall) : String := streamIdOf call.incoming.event

inductive Append where
  | begun (call : AppendCall)
  | readHead (call : AppendCall) (head : Option StreamHead)
  /-- The stream has a row, perhaps the one the call has just inserted. -/
  | opened (call : AppendCall) (head : StreamHead) (isNew : Bool)
  /-- The event is inserted and waits for the commit. -/
  | inserted (row : SealedEvent) (isNew : Bool)

/-- The row of `integrity_stream_states` a transaction has inserted. -/
def Append.newStream : Append → Option String
  | .opened _ head true => some head.streamId
  | .inserted row true => some row.raw.integrityStreamId
  | _ => none

/-- The row of `raw_events` a transaction has inserted. -/
def Append.pending : Append → Option SealedEvent
  | .inserted row _ => some row
  | _ => none

/-- Two rows that the primary key or `uq_integrity_stream_seq` keeps apart. -/
def Clash (a b : SealedEvent) : Prop :=
  a.raw.eventId = b.raw.eventId ∨
    (a.raw.integrityStreamId = b.raw.integrityStreamId ∧ a.raw.integritySeq = b.raw.integritySeq)

instance (a b : SealedEvent) : Decidable (Clash a b) := inferInstanceAs (Decidable (_ ∨ _ ∧ _))

def headOf (heads : List StreamHead) (streamId : String) : Option StreamHead :=
  heads.find? fun head => decide (head.streamId = streamId)

/-- `stream.last_seq = next_seq; stream.last_mac = mac`. -/
def advanceHead (heads : List StreamHead) (row : SealedEvent) : List StreamHead :=
  upsert (·.streamId) row.raw.integrityStreamId { streamId := row.raw.integrityStreamId }
    (fun head => { head with lastSeq := row.raw.integritySeq, lastMac := row.integrityMac }) heads

/-- What the commit of an inserted row leaves. -/
def appendRow (ledger : Ledger) (row : SealedEvent) : Ledger :=
  { ledger with rows := ledger.rows ++ [row], heads := advanceHead ledger.heads row }

section Protocol
variable (settings : CryptoSettings)

inductive AppendMoves (w : World Ledger Append) (i : ℕ) : Append → Append → Prop where
  | readHead (call : AppendCall) :
      AppendMoves w i (.begun call) (.readHead call (headOf w.committed.heads call.streamId))
  | found (call : AppendCall) (head : StreamHead) :
      AppendMoves w i (.readHead call (some head)) (.opened call head false)
  | opens (call : AppendCall) (hfree : headOf w.committed.heads call.streamId = none)
      (hothers : w.Others i fun m => m.newStream ≠ some call.streamId) :
      AppendMoves w i (.readHead call none) (.opened call { streamId := call.streamId } true)
  | inserts (call : AppendCall) (head : StreamHead) (isNew : Bool) (ingestSeq : ℕ) (row : SealedEvent)
      (hrow : row = sealEvent settings head call.incoming call.receivedAt ingestSeq call.nonce)
      (hfree : ∀ old ∈ w.committed.rows, ¬ Clash row old)
      (hothers : w.Others i fun m => ∀ other, m.pending = some other → ¬ Clash row other) :
      AppendMoves w i (.opened call head isNew) (.inserted row isNew)

inductive AppendCommits (w : World Ledger Append) : Append → Ledger → Option Append → Prop where
  | commit (row : SealedEvent) (isNew : Bool) :
      AppendCommits w (.inserted row isNew) (appendRow w.committed row) none

def appending : Protocol Ledger Append where
  begins append := ∃ call, append = .begun call
  moves := AppendMoves settings
  commits w _ := AppendCommits w
  rollsBack _ := True

end Protocol

/-! ### A call alone -/

/-- The head a call continues: that of its stream, or a new one. -/
def headFor (ledger : Ledger) (call : AppendCall) : StreamHead :=
  (headOf ledger.heads call.streamId).getD { streamId := call.streamId }

/-- A call no other one interferes with appends its row. -/
theorem append_alone (settings : CryptoSettings) (ledger : Ledger) (call : AppendCall)
    (ingestSeq : ℕ) {row : SealedEvent}
    (hrow : row = sealEvent settings (headFor ledger call) call.incoming call.receivedAt ingestSeq
      call.nonce) (hfree : ∀ old ∈ ledger.rows, ¬ Clash row old) :
    (appending settings).Reachable (World.quiet ledger) (World.quiet (appendRow ledger row)) := by
  have hbegun : (appending settings).Reachable (World.quiet ledger)
      (Protocol.alone ledger (.begun call)) := by
    apply Protocol.alone_begins
    exact ⟨call, rfl⟩
  have hread := Protocol.alone_moves hbegun (.readHead call)
  have hopened : ∃ isNew, (appending settings).Reachable (World.quiet ledger)
      (Protocol.alone ledger (.opened call (headFor ledger call) isNew)) := by
    cases hhead : headOf ledger.heads call.streamId with
    | some head =>
      have hmove : AppendMoves settings (Protocol.alone ledger (.readHead call (some head))) 0
          (.readHead call (some head)) (.opened call head false) := .found call head
      rw [headFor, hhead]
      exact ⟨false, Protocol.alone_moves (hhead ▸ hread) hmove⟩
    | none =>
      have hmove : AppendMoves settings (Protocol.alone ledger (.readHead call none)) 0
          (.readHead call none) (.opened call { streamId := call.streamId } true) :=
        .opens call hhead (Protocol.others_alone _ _ _)
      rw [headFor, hhead]
      exact ⟨true, Protocol.alone_moves (hhead ▸ hread) hmove⟩
  obtain ⟨isNew, hopened⟩ := hopened
  have hinserted := Protocol.alone_moves hopened (.inserts call (headFor ledger call) isNew ingestSeq
    row hrow hfree (Protocol.others_alone _ _ _))
  exact Protocol.alone_commits hinserted (.commit row isNew)

/-! ## Chained ledgers -/

/-- The rows of a stream in the order they were committed. -/
def streamRows (rows : List SealedEvent) (streamId : String) : List SealedEvent :=
  rows.filter fun row => decide (row.raw.integrityStreamId = streamId)

variable {settings : CryptoSettings}

/-- The head is that of the rows. -/
def HeadOf (settings : CryptoSettings) (head : StreamHead) (rows : List SealedEvent) : Prop :=
  head.lastSeq = rows.length ∧ head.lastMac = endMac (chainColumns settings) [] rows

structure Chained (settings : CryptoSettings) (ledger : Ledger) : Prop where
  linked : ∀ streamId, Linked (chainColumns settings) [] 1 (streamRows ledger.rows streamId)
  heads : ∀ head ∈ ledger.heads, HeadOf settings head (streamRows ledger.rows head.streamId)
  covered : ∀ row ∈ ledger.rows, row.raw.integrityStreamId ∈ ledger.heads.map (·.streamId)
  stream_ids : (ledger.heads.map (·.streamId)).Nodup

theorem streamRows_concat_self {rows : List SealedEvent} {row : SealedEvent} :
    streamRows (rows ++ [row]) row.raw.integrityStreamId =
      streamRows rows row.raw.integrityStreamId ++ [row] := by
  simp [streamRows]

theorem streamRows_concat_other {rows : List SealedEvent} {row : SealedEvent} {streamId : String}
    (h : row.raw.integrityStreamId ≠ streamId) :
    streamRows (rows ++ [row]) streamId = streamRows rows streamId := by
  simp [streamRows, h]

/-- In the order of `integrity_seq` the rows of a chain stay as they are. -/
theorem Chained.streamEvents {ledger : Ledger} (h : Chained settings ledger) (streamId : String) :
    Security.streamEvents ledger.rows streamId = streamRows ledger.rows streamId :=
  insertionSort_of_linked (h.linked streamId)

theorem chained_empty : Chained settings {} := by
  refine ⟨fun _ => trivial, ?_, ?_, List.nodup_nil⟩
  · simp
  · simp

theorem advanceHead_ids (heads : List StreamHead) (row : SealedEvent) :
    (advanceHead heads row).map (·.streamId) =
      if row.raw.integrityStreamId ∈ heads.map (·.streamId) then heads.map (·.streamId)
      else heads.map (·.streamId) ++ [row.raw.integrityStreamId] := by
  apply map_upsert
  · rfl
  · exact fun _ => rfl

/-- A row sealed after the head of its stream extends the chain. -/
theorem Chained.append {ledger : Ledger} (h : Chained settings ledger) {head : StreamHead}
    {incoming : IncomingEvent} {receivedAt : Instant} {ingestSeq : ℕ} {nonce : Bytes}
    {row : SealedEvent} (hrow : row = sealEvent settings head incoming receivedAt ingestSeq nonce)
    (hhead : HeadOf settings head (streamRows ledger.rows head.streamId)) :
    Chained settings (appendRow ledger row) := by
  obtain ⟨hseq, hmac⟩ := hhead
  have hstream : row.raw.integrityStreamId = head.streamId := by rw [hrow]; rfl
  have hnumber : row.raw.integritySeq = head.lastSeq + 1 := by rw [hrow]; rfl
  have hprev : row.prevIntegrityMac = head.lastMac := by rw [hrow]; rfl
  have hself : streamRows (ledger.rows ++ [row]) head.streamId =
      streamRows ledger.rows head.streamId ++ [row] := by
    rw [← hstream]
    exact streamRows_concat_self
  have hother : ∀ streamId, streamId ≠ head.streamId →
      streamRows (ledger.rows ++ [row]) streamId = streamRows ledger.rows streamId :=
    fun streamId hne => streamRows_concat_other (by rw [hstream]; exact Ne.symm hne)
  refine ⟨fun streamId => ?_, fun new hnew => ?_, fun old hold => ?_, ?_⟩
  · by_cases hid : streamId = head.streamId
    · subst hid
      show Linked _ _ _ (streamRows (ledger.rows ++ [row]) _)
      rw [hself]
      refine linked_concat (h.linked _) ?_ ?_ ?_
      · show row.raw.integritySeq = _
        omega
      · show row.prevIntegrityMac = _
        rw [hprev, hmac]
      · rw [hrow]
        exact sealEvent_intact head incoming receivedAt ingestSeq nonce
    · show Linked _ _ _ (streamRows (ledger.rows ++ [row]) _)
      rw [hother streamId hid]
      exact h.linked streamId
  · by_cases hid : new.streamId = head.streamId
    · obtain ⟨old, -, rfl⟩ := mem_upsert_self h.stream_ids hnew (hid.trans hstream.symm)
      show HeadOf settings _ (streamRows (ledger.rows ++ [row]) _)
      simp only at hid
      rw [hid, hself, HeadOf, endMac_concat, List.length_append, List.length_singleton]
      exact ⟨by show row.raw.integritySeq = _; omega, rfl⟩
    · have hkept : new ∈ ledger.heads := by
        refine (mem_upsert_other ?_ ?_ ?_).mp hnew
        · rfl
        · exact fun _ => rfl
        · rw [hstream]
          exact hid
      show HeadOf settings _ (streamRows (ledger.rows ++ [row]) _)
      rw [hother _ hid]
      exact h.heads new hkept
  · have hold' : old.raw.integrityStreamId ∈ ledger.heads.map (·.streamId) ∨ old = row := by
      rcases List.mem_append.mp hold with hmem | hmem
      · exact .inl (h.covered old hmem)
      · exact .inr (List.mem_singleton.mp hmem)
    show old.raw.integrityStreamId ∈ (advanceHead ledger.heads row).map (·.streamId)
    rw [advanceHead_ids]
    split
    · rename_i hknown
      rcases hold' with hmem | rfl
      · exact hmem
      · exact hknown
    · rcases hold' with hmem | rfl
      · exact List.mem_append_left _ hmem
      · exact List.mem_append_right _ (List.mem_singleton_self _)
  · apply nodup_upsert
    · rfl
    · exact fun _ => rfl
    · exact h.stream_ids

/-! ## What every interleaving keeps -/

/-- The head was that of the stream at some time. -/
def ReadHead (settings : CryptoSettings) (head : StreamHead) (ledger : Ledger) : Prop :=
  ∃ front, front <+: streamRows ledger.rows head.streamId ∧ HeadOf settings head front

theorem ReadHead.mono {head : StreamHead} {ledger ledger' : Ledger}
    (h : ReadHead settings head ledger) (hrows : ledger.rows <+: ledger'.rows) :
    ReadHead settings head ledger' := by
  obtain ⟨front, hfront, hhead⟩ := h
  exact ⟨front, hfront.trans (hrows.filter _), hhead⟩

/-- What a transaction holds may be overtaken by commits, but its inserted row clashes with none. -/
def Fits (settings : CryptoSettings) (ledger : Ledger) : Append → Prop
  | .begun _ => True
  | .readHead _ head => ∀ h, head = some h → ReadHead settings h ledger
  | .opened _ head _ => ReadHead settings head ledger
  | .inserted row _ => (∀ old ∈ ledger.rows, ¬ Clash row old) ∧
      ∃ head incoming receivedAt ingestSeq nonce,
        row = sealEvent settings head incoming receivedAt ingestSeq nonce ∧
          ReadHead settings head ledger

/-- The inserted rows of two transactions do not clash. -/
def Apart (a b : Append) : Prop :=
  ∀ row other, a.pending = some row → b.pending = some other → ¬ Clash row other

theorem Clash.symm {a b : SealedEvent} (h : Clash a b) : Clash b a :=
  h.imp Eq.symm fun ⟨hstream, hseq⟩ => ⟨hstream.symm, hseq.symm⟩

/-- A row that clashes with no committed one was sealed after the last of them. -/
theorem headOf_rows {ledger : Ledger} (h : Chained settings ledger) {head : StreamHead}
    (hread : ReadHead settings head ledger)
    (hfree : ∀ old ∈ streamRows ledger.rows head.streamId,
      old.raw.integritySeq ≠ head.lastSeq + 1) :
    HeadOf settings head (streamRows ledger.rows head.streamId) := by
  obtain ⟨front, ⟨more, hmore⟩, hhead⟩ := hread
  cases more with
  | nil =>
    rw [List.append_nil] at hmore
    exact hmore ▸ hhead
  | cons next rest =>
    -- the next row has the number of ours
    have hlinked := h.linked head.streamId
    rw [← hmore, linked_append] at hlinked
    have hnext : next.raw.integritySeq = 1 + front.length := hlinked.2.1
    refine absurd ?_ (hfree next (hmore ▸ List.mem_append_right _ List.mem_cons_self))
    rw [hnext, hhead.1]
    omega

theorem mem_of_headOf {heads : List StreamHead} {streamId : String} {head : StreamHead}
    (h : headOf heads streamId = some head) : head ∈ heads ∧ head.streamId = streamId :=
  ⟨List.mem_of_find?_eq_some h, by simpa using List.find?_some h⟩

theorem appends_step {w w' : World Ledger Append}
    (h : Protocol.Held (Chained settings) (Fits settings) Apart w)
    (hstep : (appending settings).Step w w') :
    Protocol.Held (Chained settings) (Fits settings) Apart w' := by
  refine Protocol.held_step ?_ ?_ ?_ ?_ h hstep
  · exact fun a b hab row other hrow hother hclash => hab other row hother hrow hclash.symm
  · rintro ledger append hchained ⟨call, rfl⟩
    exact ⟨trivial, fun m row other hrow => by cases hrow⟩
  · intro w i l l' hw hl hmove
    cases hmove with
    | readHead call =>
      refine ⟨fun head hread => ?_, fun j m _ _ row other hrow => by cases hrow⟩
      obtain ⟨hmem, -⟩ := mem_of_headOf hread
      exact ⟨_, List.prefix_rfl, hw.shared.heads head hmem⟩
    | found call head =>
      exact ⟨hw.each i _ hl head rfl, fun j m _ _ row other hrow => by cases hrow⟩
    | opens call hfree hothers =>
      exact ⟨⟨[], List.nil_prefix, rfl, rfl⟩, fun j m _ _ row other hrow => by cases hrow⟩
    | inserts call head isNew ingestSeq row hrow hfree hothers =>
      refine ⟨⟨hfree, head, call.incoming, call.receivedAt, ingestSeq, call.nonce, hrow,
        hw.each i _ hl⟩, fun j m hj hm a b ha hb => ?_⟩
      obtain rfl := Option.some.inj ha
      exact hothers j m hj hm b hb
  · intro w i l ledger l' hw hl hcommit
    cases hcommit with
    | commit row isNew =>
      obtain ⟨hfree, head, incoming, receivedAt, ingestSeq, nonce, hrow, hread⟩ := hw.each i _ hl
      have hstream : row.raw.integrityStreamId = head.streamId := by rw [hrow]; rfl
      have hnumber : row.raw.integritySeq = head.lastSeq + 1 := by rw [hrow]; rfl
      have hhead : HeadOf settings head (streamRows w.committed.rows head.streamId) := by
        refine headOf_rows hw.shared hread fun old hold hseq => ?_
        obtain ⟨hmem, hid⟩ := List.mem_filter.mp hold
        refine hfree old hmem (.inr ⟨?_, ?_⟩)
        · rw [hstream]
          exact (of_decide_eq_true hid).symm
        · rw [hnumber, hseq]
      refine ⟨hw.shared.append hrow hhead, fun j m hj hm => ?_, fun m hm => by cases hm⟩
      have hmore : w.committed.rows <+: w.committed.rows ++ [row] := List.prefix_append _ _
      have hold := hw.each j m hm
      cases m with
      | begun call => trivial
      | readHead call read => exact fun h' hread => (hold h' hread).mono hmore
      | opened call head isNew => exact hold.mono hmore
      | inserted other isNew =>
        obtain ⟨hfree', head', incoming', receivedAt', ingestSeq', nonce', hother, hread'⟩ := hold
        refine ⟨fun old hmem => ?_, head', incoming', receivedAt', ingestSeq', nonce', hother,
          hread'.mono hmore⟩
        rcases List.mem_append.mp hmem with hmem | hmem
        · exact hfree' old hmem
        · rw [List.mem_singleton.mp hmem]
          exact hw.pairs j _ hm i _ (Ne.symm hj) hl other row rfl rfl

/-- Every ledger some interleaving commits is chained. -/
theorem appends_chained {w : World Ledger Append}
    (h : (appending settings).Reachable (World.quiet {}) w) : Chained settings w.committed := by
  have hheld : Protocol.Held (Chained settings) (Fits settings) Apart w :=
    Protocol.invariant (fun _ _ => appends_step) (Protocol.held_quiet chained_empty) h
  exact hheld.shared

end TraceQ.Ingestion
