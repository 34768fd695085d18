import TraceQ.Worker.Exchange

/-! # What the exchange keeps

A worker finds the row of its message as it picked it when it commits, and the payload of a message
never changes.
-/
namespace TraceQ.Worker
open Tables Transactions Erp
set_option autoImplicit false
set_option maxHeartbeats 250000

structure RowsSound (x : Exchange) : Prop where
  ids : (x.outbox.map (·.messageId)).Nodup
  released : ∀ row ∈ x.outbox, ∃ result : QualityResultInput, result.Valid ∧
    row.messageId = result.messageId ∧ row.payload = result.dump

/-- The row that the transaction holds is there, and still to be sent. -/
def HoldsRow (x : Exchange) (l : ExchangeTransaction) : Prop :=
  ∀ row, l.row? = some row → row ∈ x.outbox ∧ row.state ≠ .delivered

/-- Two transactions hold different rows. -/
def RowsApart (l m : ExchangeTransaction) : Prop :=
  ∀ a b, l.row? = some a → m.row? = some b → a.messageId ≠ b.messageId

theorem rowsApart_symm (l m : ExchangeTransaction) (h : RowsApart l m) : RowsApart m l :=
  fun a b ha hb => (h b a hb ha).symm

theorem rowsApart_of_none {l : ExchangeTransaction} (h : l.row? = none) (m : ExchangeTransaction) :
    RowsApart l m := by
  intro a b ha
  rw [h] at ha
  cases ha

theorem holdsRow_of_none {l : ExchangeTransaction} (h : l.row? = none) (x : Exchange) : HoldsRow x l := by
  intro row hrow
  rw [h] at hrow
  cases hrow

theorem mem_of_findRow {rows : List OutboxRow} {messageId : String} {row : OutboxRow}
    (h : findRow rows messageId = some row) : row ∈ rows ∧ row.messageId = messageId :=
  ⟨List.mem_of_find?_eq_some h, by simpa using List.find?_some h⟩

theorem fresh_of_findRow {rows : List OutboxRow} {messageId : String}
    (h : findRow rows messageId = none) : ∀ row ∈ rows, row.messageId ≠ messageId := by
  simpa [findRow] using h

/-! ## Steps -/

section Steps
variable {settings : WorkerSettings} {isoformat : Instant → String} {answers : Answering}
  {w : ExchangeWorld} {i : ℕ} {l : ExchangeTransaction} {x : Exchange} {l' : Option ExchangeTransaction}

/-- The message whose row a commit may write. -/
def writes : ExchangeTransaction → Option String
  | .answered row _ => some row.messageId
  | .retryRead read => some read.messageId
  | _ => none

/-- What a commit does to the outbox: nothing, a new message, or a row with its old payload. -/
inductive Writes (x : Exchange) (l : ExchangeTransaction) : List OutboxRow → Prop where
  | nothing : Writes x l x.outbox
  | releases (result : QualityResultInput) (now : Instant) (hvalid : result.Valid)
      (hfresh : ∀ row ∈ x.outbox, row.messageId ≠ result.messageId) :
      Writes x l (x.outbox ++ [releaseRow result now])
  | row (old row' : OutboxRow) (hold : old ∈ x.outbox) (hid : row'.messageId = old.messageId)
      (hpayload : row'.payload = old.payload) (hwrites : writes l = some old.messageId) :
      Writes x l (saveRow row' x.outbox)

theorem writes_commits (hholds : HoldsRow w.committed l)
    (h : ExchangeCommits settings isoformat w i l x l') : Writes w.committed l x.outbox := by
  cases h with
  | releases result hvalid hfresh => exact .releases result _ hvalid (fresh_of_findRow hfresh)
  | settles row row' reaction entry alert healthy hhandle =>
    obtain ⟨hsettles, -⟩ := settles_of_handle hhandle
    exact .row row row' (hholds row rfl).1 hsettles.messageId hsettles.payload rfl
  | retries read row hfind hfree =>
    obtain ⟨hmem, hid⟩ := mem_of_findRow hfind
    exact .row row _ hmem rfl rfl (by rw [hid]; rfl)
  | _ => exact .nothing

theorem rowsSound_writes {rows : List OutboxRow} (h : RowsSound w.committed)
    (hwrites : Writes w.committed l rows) : RowsSound { w.committed with outbox := rows } := by
  cases hwrites with
  | nothing => exact h
  | releases result now hvalid hfresh =>
    refine ⟨nodup_map_append h.ids hfresh, fun row hmem => ?_⟩
    rcases List.mem_append.mp hmem with hold | hnew
    · exact h.released row hold
    · rw [List.mem_singleton.mp hnew]
      exact ⟨result, hvalid, rfl, rfl⟩
  | row old row' hold hid hpayload _ =>
    refine ⟨by rw [map_id_saveRow]; exact h.ids, fun row hmem => ?_⟩
    rcases mem_saveRow hmem with rfl | ⟨hbefore, -⟩
    · obtain ⟨result, hvalid, hresult, hdump⟩ := h.released old hold
      exact ⟨result, hvalid, hid.trans hresult, hpayload.trans hdump⟩
    · exact h.released row hbefore

/-- Rows that the commit does not write stay. -/
theorem mem_writes {rows : List OutboxRow} (hwrites : Writes w.committed l rows) {row : OutboxRow}
    (hmem : row ∈ w.committed.outbox) (hother : writes l ≠ some row.messageId) : row ∈ rows := by
  cases hwrites with
  | nothing => exact hmem
  | releases result now hvalid hfresh => exact List.mem_append_left _ hmem
  | row old row' hold hid hpayload hown =>
    refine mem_saveRow_other hmem fun heq => hother ?_
    rw [hown, heq, hid]

/-- No message and no payload is lost. -/
theorem payload_writes {rows : List OutboxRow} (h : RowsSound w.committed)
    (hwrites : Writes w.committed l rows) {row : OutboxRow} (hmem : row ∈ w.committed.outbox) :
    ∃ row' ∈ rows, row'.messageId = row.messageId ∧ row'.payload = row.payload := by
  by_cases hother : writes l = some row.messageId
  · cases hwrites with
    | nothing => exact ⟨row, hmem, rfl, rfl⟩
    | releases result now hvalid hfresh => exact ⟨row, List.mem_append_left _ hmem, rfl, rfl⟩
    | row old row' hold hid hpayload hown =>
      obtain rfl := eq_of_nodup_map h.ids hmem hold (Option.some.inj (hother.symm.trans hown))
      exact ⟨row', mem_saveRow_self hmem hid, hid, hpayload⟩
  · exact ⟨row, mem_writes hwrites hmem hother, rfl, rfl⟩

theorem holdsRow_moves (hholds : HoldsRow w.committed l) {m : ExchangeTransaction}
    (h : ExchangeMoves answers w i l m) : HoldsRow w.committed m := by
  cases h with
  | picks row hmem hdue hfree holdest =>
    intro own hown
    obtain rfl : row = own := by simpa [ExchangeTransaction.row?] using hown
    refine ⟨hmem, fun hdelivered => ?_⟩
    simp [OutboxRow.due, hdelivered] at hdue
  | meets row request reaction hanswers => exact hholds
  | retryReads messageId row hfind hstate => exact holdsRow_of_none rfl _

theorem rowsApart_moves (hpairs : w.Others i (RowsApart l)) {m : ExchangeTransaction}
    (h : ExchangeMoves answers w i l m) : w.Others i (RowsApart m) := by
  cases h with
  | picks row hmem hdue hfree holdest =>
    intro j n hj hn a b ha hb heq
    obtain rfl : row = a := by simpa [ExchangeTransaction.row?] using ha
    exact hfree j n hj hn b hb heq.symm
  | meets row request reaction hanswers => exact hpairs
  | retryReads messageId row hfind hstate => exact fun _ _ _ _ => rowsApart_of_none rfl _

/-- Nobody else holds the row that a commit writes. -/
theorem writes_free (hpairs : w.Others i (RowsApart l))
    (h : ExchangeCommits settings isoformat w i l x l') :
    w.Others i fun m => ∀ row, m.row? = some row → writes l ≠ some row.messageId := by
  intro j m hj hm row hrow hwrites
  cases h with
  | settles own row' reaction entry alert healthy hhandle =>
    exact hpairs j m hj hm own row rfl hrow (Option.some.inj hwrites)
  | retries read current hfind hfree =>
    exact hfree j m hj hm row hrow (Option.some.inj hwrites).symm
  | _ => cases hwrites

theorem holdsRow_commits (hpairs : w.Others i (RowsApart l))
    (hholds : ∀ j m, w.flight j = some m → HoldsRow w.committed m)
    (hown : HoldsRow w.committed l) (h : ExchangeCommits settings isoformat w i l x l') :
    w.Others i (HoldsRow x) := by
  intro j m hj hm row hrow
  obtain ⟨hmem, hstate⟩ := hholds j m hm row hrow
  exact ⟨mem_writes (writes_commits hown h) hmem (writes_free hpairs h j m hj hm row hrow), hstate⟩

/-- A transaction that goes on holds the row it held. -/
theorem holdsRow_next {m : ExchangeTransaction} (hown : HoldsRow w.committed l)
    (hpairs : w.Others i (RowsApart l)) (h : ExchangeCommits settings isoformat w i l x (some m)) :
    HoldsRow x m ∧ w.Others i (RowsApart m) := by
  cases h with
  | posts row => exact ⟨hown, hpairs⟩
  | consumes request value body hpost hparse =>
    exact ⟨holdsRow_of_none rfl _, fun _ _ _ _ => rowsApart_of_none rfl _⟩

theorem holdsRow_begins {x : Exchange} (h : l.Begins) : HoldsRow x l ∧ ∀ m, RowsApart l m := by
  cases h with
  | _ => exact ⟨holdsRow_of_none rfl _, rowsApart_of_none rfl⟩

end Steps

/-- Nothing has been released or sent. -/
structure Exchange.Empty (x : Exchange) : Prop where
  outbox : x.outbox = []
  posts : x.posts = []
  replies : x.replies = []
  deliveries : x.erp.deliveries = []
  history : x.history = []

theorem rowsSound_empty {x : Exchange} (h : x.Empty) : RowsSound x :=
  ⟨by simp [h.outbox], by simp [h.outbox]⟩

end TraceQ.Worker
