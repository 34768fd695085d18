import TraceQ.Properties.DeliveredTerminal

/-! # The outbox agrees with the ERP

However workers, retries, lost replies and changes of mode interleave, the emulator holds a message at
most once, with the payload of the outbox, and answers it with the same acknowledgement every time. A
message is delivered in the outbox only if the emulator holds it.
-/
namespace TraceQ.Properties
open Worker Erp Tables Transactions Relation Protocol
set_option autoImplicit false
set_option maxHeartbeats 250000

/-- The body acknowledges the request `value` with the delivery of its message. -/
def AnsweredBy (x : Exchange) (value : Json) (body : Json) : Prop :=
  ∃ result, QualityResultInput.parse value = some result ∧ ∃ delivery ∈ x.erp.deliveries,
    delivery.messageId = result.messageId ∧ body = .obj delivery.ack.fields

structure ErpAgreement (x : Exchange) : Prop where
  atMostOne : (x.erp.deliveries.map (·.messageId)).Nodup
  answered : ∀ n reply, (n, reply) ∈ x.replies → reply.status = 200 → ∃ value body,
    x.posts[n]? = some value ∧ reply.body = some body ∧ AnsweredBy x value body
  /-- Two acknowledgements of requests with the same `message_id`. -/
  acks : ∀ m n reply reply', (m, reply) ∈ x.replies → (n, reply') ∈ x.replies →
    reply.status = 200 → reply'.status = 200 →
    ∀ body body', x.posts[m]?.bind QualityResultInput.parse = some body →
      x.posts[n]?.bind QualityResultInput.parse = some body' →
      body.messageId = body'.messageId → reply = reply'
  payloads : ∀ delivery ∈ x.erp.deliveries, ∃ row ∈ x.outbox,
    row.messageId = delivery.messageId ∧ row.payload = delivery.payload
  delivered : ∀ row ∈ x.outbox, row.state = .delivered → ∃ delivery ∈ x.erp.deliveries,
    delivery.messageId = row.messageId ∧ delivery.ack.status = "ACK" ∧
    delivery.ack.messageId = row.messageId

/-! ## The invariant -/

structure ErpSound (x : Exchange) : Prop where
  ids : (x.erp.deliveries.map (·.messageId)).Nodup
  posts : ∀ value ∈ x.posts, ∃ row ∈ x.outbox, row.payload = value
  payloads : ∀ delivery ∈ x.erp.deliveries, ∃ row ∈ x.outbox,
    row.messageId = delivery.messageId ∧ row.payload = delivery.payload
  acks : ∀ delivery ∈ x.erp.deliveries,
    delivery.ack.status = "ACK" ∧ delivery.ack.messageId = delivery.messageId
  replies : ∀ n reply, (n, reply) ∈ x.replies → 200 ≤ reply.status ∧ reply.status < 300 →
    reply.status = 200 ∧ ∃ value body, x.posts[n]? = some value ∧ reply.body = some body ∧
      AnsweredBy x value body
  delivered : ∀ row ∈ x.outbox, row.state = .delivered → ∃ delivery ∈ x.erp.deliveries,
    delivery.messageId = row.messageId

/-- What a transaction knows of the requests. -/
def Exchanged (x : Exchange) : ExchangeTransaction → Prop
  | .posted row request => x.posts[request]? = some row.payload
  | .answered row reaction => ∀ status body, reaction = .responds status (.ok body) →
      200 ≤ status ∧ status < 300 → AnsweredBy x row.payload body
  | .decided request body _ => ∃ value, x.posts[request]? = some value ∧
      QualityResultInput.parse value = some body
  | _ => True

/-- Requests and deliveries are only added. -/
structure Extends (x y : Exchange) : Prop where
  posts : ∃ more, y.posts = x.posts ++ more
  deliveries : ∃ more, y.erp.deliveries = x.erp.deliveries ++ more

section Extends
variable {x y : Exchange}

theorem Extends.refl (x : Exchange) : Extends x x := ⟨⟨[], by simp⟩, ⟨[], by simp⟩⟩

theorem Extends.post (h : Extends x y) {n : ℕ} {value : Json} (hpost : x.posts[n]? = some value) :
    y.posts[n]? = some value := by
  obtain ⟨more, hmore⟩ := h.posts
  rw [hmore, List.getElem?_append_left (List.getElem?_eq_some_iff.mp hpost).1]
  exact hpost

theorem Extends.delivery (h : Extends x y) {delivery : Delivery} (hmem : delivery ∈ x.erp.deliveries) :
    delivery ∈ y.erp.deliveries := by
  obtain ⟨more, hmore⟩ := h.deliveries
  rw [hmore]
  exact List.mem_append_left _ hmem

theorem Extends.answeredBy (h : Extends x y) {value body : Json} (hanswered : AnsweredBy x value body) :
    AnsweredBy y value body := by
  obtain ⟨result, hparse, delivery, hmem, hrest⟩ := hanswered
  exact ⟨result, hparse, delivery, h.delivery hmem, hrest⟩

theorem Extends.exchanged (h : Extends x y) {l : ExchangeTransaction} (hl : Exchanged x l) :
    Exchanged y l := by
  cases l with
  | posted row request => exact h.post hl
  | answered row reaction =>
    exact fun status body heq hsuccess => h.answeredBy (hl status body heq hsuccess)
  | decided request body mode =>
    obtain ⟨value, hpost, hparse⟩ := hl
    exact ⟨value, h.post hpost, hparse⟩
  | _ => trivial

/-- The payload of a message is read back as its result. -/
theorem parse_payload (h : RowsSound x) {row : OutboxRow} (hmem : row ∈ x.outbox)
    {body : QualityResultInput} (hparse : QualityResultInput.parse row.payload = some body) :
    body.messageId = row.messageId ∧ body.dump = row.payload := by
  obtain ⟨result, hvalid, hid, hdump⟩ := h.released row hmem
  rw [hdump, QualityResultInput.parse_dump hvalid] at hparse
  cases hparse
  exact ⟨hid.symm, hdump.symm⟩

end Extends

/-! ## One step -/

section Step
variable {settings : WorkerSettings} {isoformat : Instant → String} {w : ExchangeWorld} {i : ℕ}
  {l : ExchangeTransaction} {x : Exchange} {l' : Option ExchangeTransaction}

theorem deliver_cases (state : Erp.State) (body : QualityResultInput) (receivedAt : String) :
    (∃ existing ∈ state.deliveries, existing.messageId = body.messageId ∧
      deliver state body receivedAt = (state, existing.ack)) ∨
    ((∀ delivery ∈ state.deliveries, delivery.messageId ≠ body.messageId) ∧
      deliver state body receivedAt =
        ({ state with deliveries := state.deliveries ++ [newDelivery state body receivedAt] },
          (newDelivery state body receivedAt).ack)) := by
  unfold deliver
  cases hfind : findDelivery state body.messageId with
  | some existing =>
    exact .inl ⟨existing, List.mem_of_find?_eq_some hfind, by simpa using List.find?_some hfind, rfl⟩
  | none => exact .inr ⟨by simpa [findDelivery] using hfind, rfl⟩

theorem consume_deliveries (state : Erp.State) : (consume state).deliveries = state.deliveries := by
  unfold consume
  split <;> rfl

theorem grows_commits (h : ExchangeCommits settings isoformat w i l x l') : Extends w.committed x := by
  cases h with
  | posts row => exact ⟨⟨_, rfl⟩, ⟨[], by simp⟩⟩
  | consumes request value body hpost hparse =>
    exact ⟨⟨[], by simp⟩, ⟨[], by simp [consume_deliveries]⟩⟩
  | delivers request body mode hrefusal =>
    rcases deliver_cases w.committed.erp body (isoformat w.committed.clock) with
      ⟨existing, -, -, heq⟩ | ⟨-, heq⟩
    · exact ⟨⟨[], by simp⟩, ⟨[], by simp [heq]⟩⟩
    · exact ⟨⟨[], by simp⟩, ⟨[newDelivery w.committed.erp body (isoformat w.committed.clock)],
        by simp [heq]⟩⟩
  | behaves mode => exact ⟨⟨[], by simp⟩, ⟨[], by simp [behave]⟩⟩
  | _ => exact ⟨⟨[], by simp⟩, ⟨[], by simp⟩⟩

/-- What only grows keeps the invariant, but for what is new. -/
theorem ErpSound.grows (h : ErpSound w.committed) (hrows : RowsSound w.committed)
    (hwrites : Writes w.committed l x.outbox) (hgrows : Extends w.committed x)
    (hids : (x.erp.deliveries.map (·.messageId)).Nodup)
    (hposts : ∀ value ∈ x.posts, value ∈ w.committed.posts ∨ ∃ row ∈ x.outbox, row.payload = value)
    (hdeliveries : ∀ delivery ∈ x.erp.deliveries, delivery ∈ w.committed.erp.deliveries ∨
      (∃ row ∈ w.committed.outbox, row.messageId = delivery.messageId ∧
        row.payload = delivery.payload) ∧
      delivery.ack.status = "ACK" ∧ delivery.ack.messageId = delivery.messageId)
    (hreplies : ∀ n reply, (n, reply) ∈ x.replies → (n, reply) ∈ w.committed.replies ∨
      (200 ≤ reply.status ∧ reply.status < 300 → reply.status = 200 ∧
        ∃ value body, x.posts[n]? = some value ∧ reply.body = some body ∧ AnsweredBy x value body))
    (hdelivered : ∀ row ∈ x.outbox, row.state = .delivered → row ∈ w.committed.outbox ∨
      ∃ delivery ∈ x.erp.deliveries, delivery.messageId = row.messageId) : ErpSound x := by
  refine ⟨hids, fun value hmem => ?_, fun delivery hmem => ?_, fun delivery hmem => ?_,
    fun n reply hmem hsuccess => ?_, fun row hmem hstate => ?_⟩
  · rcases hposts value hmem with hold | hnew
    · obtain ⟨row, hrow, hpayload⟩ := h.posts value hold
      obtain ⟨row', hrow', -, hsame⟩ := payload_writes hrows hwrites hrow
      exact ⟨row', hrow', hsame.trans hpayload⟩
    · exact hnew
  · have hbefore : ∃ row ∈ w.committed.outbox, row.messageId = delivery.messageId ∧
        row.payload = delivery.payload := by
      rcases hdeliveries delivery hmem with hold | ⟨hnew, -⟩
      · exact h.payloads delivery hold
      · exact hnew
    obtain ⟨row, hrow, hid, hpayload⟩ := hbefore
    obtain ⟨row', hrow', hid', hpayload'⟩ := payload_writes hrows hwrites hrow
    exact ⟨row', hrow', hid'.trans hid, hpayload'.trans hpayload⟩
  · rcases hdeliveries delivery hmem with hold | ⟨-, hnew⟩
    · exact h.acks delivery hold
    · exact hnew
  · rcases hreplies n reply hmem with hold | hnew
    · obtain ⟨hstatus, value, body, hpost, hbody, hanswered⟩ := h.replies n reply hold hsuccess
      exact ⟨hstatus, value, body, hgrows.post hpost, hbody, hgrows.answeredBy hanswered⟩
    · exact hnew hsuccess
  · rcases hdelivered row hmem hstate with hold | hnew
    · obtain ⟨delivery, hin, hid⟩ := h.delivered row hold hstate
      exact ⟨delivery, hgrows.delivery hin, hid⟩
    · exact hnew

/-- A row that is not written as delivered was there before. -/
theorem delivered_of_nothing {rows : List OutboxRow} (heq : rows = w.committed.outbox)
    {erp : Erp.State} : ∀ row ∈ rows, row.state = .delivered → row ∈ w.committed.outbox ∨
      ∃ delivery ∈ erp.deliveries, delivery.messageId = row.messageId :=
  fun _ hmem _ => .inl (heq ▸ hmem)

theorem not_success_of_refusal {mode : Mode} {reply : Reply} (h : refusal mode = some reply) :
    ¬ (200 ≤ reply.status ∧ reply.status < 300) := by
  cases mode with
  | normal => cases h
  | timeoutOnce => cases h
  | error503 => cases h; exact fun hsuccess => absurd hsuccess.2 (by decide)
  | reject400 => cases h; exact fun hsuccess => absurd hsuccess.2 (by decide)
  | offline => cases h; exact fun hsuccess => absurd hsuccess.2 (by decide)

theorem erpSound_commits (hrows : RowsSound w.committed) (hholds : HoldsRow w.committed l)
    (hl : Exchanged w.committed l) (h : ErpSound w.committed)
    (hcommit : ExchangeCommits settings isoformat w i l x l') : ErpSound x := by
  have hwrites := writes_commits hholds hcommit
  have hgrows := grows_commits hcommit
  cases hcommit with
  | waits time htime =>
    exact ⟨h.ids, h.posts, h.payloads, h.acks, h.replies, h.delivered⟩
  | releases result hvalid hfresh =>
    refine h.grows hrows hwrites hgrows h.ids (fun _ hmem => .inl hmem) (fun _ hmem => .inl hmem)
      (fun _ _ hmem => .inl hmem) fun row hmem hstate => ?_
    rcases List.mem_append.mp hmem with hold | hnew
    · exact .inl hold
    · rw [List.mem_singleton.mp hnew] at hstate
      cases hstate
  | posts row =>
    refine h.grows hrows hwrites hgrows h.ids (fun value hmem => ?_) (fun _ hmem => .inl hmem)
      (fun _ _ hmem => .inl hmem) (delivered_of_nothing rfl)
    rcases List.mem_append.mp hmem with hold | hnew
    · exact .inl hold
    · exact .inr ⟨row, (hholds row rfl).1, (List.mem_singleton.mp hnew).symm⟩
  | settles row row' reaction entry alert healthy hhandle =>
    refine h.grows hrows hwrites hgrows h.ids (fun _ hmem => .inl hmem) (fun _ hmem => .inl hmem)
      (fun _ _ hmem => .inl hmem) fun other hmem hstate => ?_
    rcases mem_saveRow hmem with rfl | ⟨hold, -⟩
    · obtain ⟨hsettles, hack⟩ := settles_of_handle hhandle
      obtain ⟨status, ack, hreaction, hsuccess, -⟩ := hack hstate
      obtain ⟨result, hparse, delivery, hin, hid, -⟩ := hl status _ hreaction hsuccess
      have hresult := (parse_payload hrows (hholds row rfl).1 hparse).1
      exact .inr ⟨delivery, hin, hid.trans (hresult.trans hsettles.messageId.symm)⟩
    · exact .inl hold
  | retries read row hfind hfree =>
    refine h.grows hrows hwrites hgrows h.ids (fun _ hmem => .inl hmem) (fun _ hmem => .inl hmem)
      (fun _ _ hmem => .inl hmem) fun other hmem hstate => ?_
    rcases mem_saveRow hmem with rfl | ⟨hold, -⟩
    · -- the state that the retry writes is never delivered, so it left the state alone
      have hkept : (if read.state = .pending then row.state else .pending) = .delivered := hstate
      by_cases hpending : read.state = .pending
      · rw [if_pos hpending] at hkept
        exact .inr (h.delivered row (mem_of_findRow hfind).1 hkept)
      · rw [if_neg hpending] at hkept
        cases hkept
    · exact .inl hold
  | unprocessable request value hpost hparse =>
    refine h.grows hrows hwrites hgrows h.ids (fun _ hmem => .inl hmem) (fun _ hmem => .inl hmem)
      (fun n reply hmem => ?_) (delivered_of_nothing rfl)
    rcases List.mem_append.mp hmem with hold | hnew
    · exact .inl hold
    · obtain ⟨rfl, rfl⟩ := Prod.mk.inj (List.mem_singleton.mp hnew)
      exact .inr fun hsuccess => absurd hsuccess.2 (by decide)
  | consumes request value body hpost hparse =>
    have hsame := consume_deliveries w.committed.erp
    refine h.grows hrows hwrites hgrows ?_ (fun _ hmem => .inl hmem) (fun _ hmem => .inl ?_)
      (fun _ _ hmem => .inl hmem) (delivered_of_nothing rfl)
    · show ((consume w.committed.erp).deliveries.map _).Nodup
      rw [hsame]
      exact h.ids
    · exact hsame ▸ hmem
  | refuses request body mode reply hrefusal =>
    refine h.grows hrows hwrites hgrows h.ids (fun _ hmem => .inl hmem) (fun _ hmem => .inl hmem)
      (fun n answer hmem => ?_) (delivered_of_nothing rfl)
    rcases List.mem_append.mp hmem with hold | hnew
    · exact .inl hold
    · obtain ⟨rfl, rfl⟩ := Prod.mk.inj (List.mem_singleton.mp hnew)
      exact .inr fun hsuccess => absurd hsuccess (not_success_of_refusal hrefusal)
  | delivers request body mode hrefusal =>
    obtain ⟨value, hpost, hparse⟩ := hl
    obtain ⟨row, hrow, hpayload⟩ := h.posts value (List.mem_of_getElem? hpost)
    obtain ⟨hid, hdump⟩ := parse_payload hrows hrow (hpayload ▸ hparse)
    rcases deliver_cases w.committed.erp body (isoformat w.committed.clock) with
      ⟨existing, hexisting, hsame, heq⟩ | ⟨hnew, heq⟩
    · have hstate : (deliver w.committed.erp body (isoformat w.committed.clock)).1 = w.committed.erp := by
        rw [heq]
      have hack : (deliver w.committed.erp body (isoformat w.committed.clock)).2 = existing.ack := by
        rw [heq]
      refine h.grows hrows hwrites hgrows ?_ (fun _ hmem => .inl hmem) (fun _ hmem => .inl ?_)
        (fun n answer hmem => ?_) (delivered_of_nothing rfl)
      · show ((deliver w.committed.erp body (isoformat w.committed.clock)).1.deliveries.map _).Nodup
        rw [hstate]
        exact h.ids
      · exact hstate ▸ hmem
      · rcases List.mem_append.mp hmem with hold | hlast
        · exact .inl hold
        · obtain ⟨rfl, rfl⟩ := Prod.mk.inj (List.mem_singleton.mp hlast)
          refine .inr fun _ => ⟨rfl, value, _, hpost, rfl, body, hparse, existing, ?_, hsame, ?_⟩
          · exact hgrows.delivery hexisting
          · rw [hack]
    · have hstate : (deliver w.committed.erp body (isoformat w.committed.clock)).1.deliveries =
          w.committed.erp.deliveries ++
            [newDelivery w.committed.erp body (isoformat w.committed.clock)] := by
        rw [heq]
      have hack : (deliver w.committed.erp body (isoformat w.committed.clock)).2 =
          (newDelivery w.committed.erp body (isoformat w.committed.clock)).ack := by
        rw [heq]
      refine h.grows hrows hwrites hgrows ?_ (fun _ hmem => .inl hmem) (fun delivery hmem => ?_)
        (fun n answer hmem => ?_) (delivered_of_nothing rfl)
      · show ((deliver w.committed.erp body (isoformat w.committed.clock)).1.deliveries.map _).Nodup
        rw [hstate]
        exact nodup_map_append h.ids hnew
      · have hin : delivery ∈ w.committed.erp.deliveries ++
            [newDelivery w.committed.erp body (isoformat w.committed.clock)] := hstate ▸ hmem
        rcases List.mem_append.mp hin with hold | hlast
        · exact .inl hold
        · rw [List.mem_singleton.mp hlast]
          exact .inr ⟨⟨row, hrow, hid.symm, hdump.symm⟩, rfl, rfl⟩
      · rcases List.mem_append.mp hmem with hold | hlast
        · exact .inl hold
        · obtain ⟨rfl, rfl⟩ := Prod.mk.inj (List.mem_singleton.mp hlast)
          refine .inr fun _ => ⟨rfl, value, _, hpost, rfl, body, hparse,
            newDelivery w.committed.erp body (isoformat w.committed.clock), ?_, rfl, ?_⟩
          · show _ ∈ (deliver w.committed.erp body (isoformat w.committed.clock)).1.deliveries
            rw [hstate]
            exact List.mem_append_right _ (List.mem_singleton.mpr rfl)
          · rw [hack]
  | behaves mode =>
    exact ⟨h.ids, h.posts, h.payloads, h.acks, h.replies, h.delivered⟩

theorem exchanged_moves (h : ErpSound w.committed) (hl : Exchanged w.committed l)
    {m : ExchangeTransaction} (hmove : ExchangeMoves emulated w i l m) : Exchanged w.committed m := by
  cases hmove with
  | picks row hmem hdue hfree holdest => trivial
  | meets row request reaction hanswers =>
    intro status body heq hsuccess
    subst heq
    obtain ⟨-, value, answer, hpost, hbody, hanswered⟩ := h.replies request _ hanswers hsuccess
    have hpost' : w.committed.posts[request]? = some row.payload := hl
    rw [hpost'] at hpost
    cases hpost
    cases hbody
    exact hanswered
  | retryReads messageId row hfind hstate => trivial

theorem exchanged_next {m : ExchangeTransaction}
    (hcommit : ExchangeCommits settings isoformat w i l x (some m)) : Exchanged x m := by
  cases hcommit with
  | posts row => exact List.getElem?_concat_length
  | consumes request value body hpost hparse => exact ⟨value, hpost, hparse⟩

end Step

/-! ## Every run -/

abbrev AgreementHeld : ExchangeWorld → Prop :=
  Held (fun x => RowsSound x ∧ ErpSound x) (fun x l => HoldsRow x l ∧ Exchanged x l) RowsApart

theorem agreementHeld_step {settings : WorkerSettings} {isoformat : Instant → String}
    {w w' : ExchangeWorld} (h : AgreementHeld w)
    (hstep : (exchangeProtocol settings isoformat emulated).Step w w') : AgreementHeld w' := by
  refine held_step rowsApart_symm (fun x l _ hl => ?_) ?_ ?_ h hstep
  · have hbegins : l.Begins := hl
    refine ⟨⟨(holdsRow_begins (x := x) hbegins).1, ?_⟩, (holdsRow_begins (x := x) hbegins).2⟩
    cases hbegins <;> trivial
  · intro w i l m hw running hmove
    have hmoves : ExchangeMoves emulated w i l m := hmove
    have hown := hw.each i l running
    exact ⟨⟨holdsRow_moves hown.1 hmoves, exchanged_moves hw.shared.2 hown.2 hmoves⟩,
      rowsApart_moves (hw.pairs i l running) hmoves⟩
  · intro w i l x l' hw running hcommit
    have hcommits : ExchangeCommits settings isoformat w i l x l' := hcommit
    have hown := hw.each i l running
    have hpairs := hw.pairs i l running
    have hsound := rowsSound_writes hw.shared.1 (writes_commits hown.1 hcommits)
    have herp := erpSound_commits hw.shared.1 hown.1 hown.2 hw.shared.2 hcommits
    have hothers := holdsRow_commits hpairs (fun j m hm => (hw.each j m hm).1) hown.1 hcommits
    refine ⟨⟨⟨hsound.ids, hsound.released⟩, herp⟩, fun j m hj hm => ⟨hothers j m hj hm, ?_⟩,
      fun m hm => ?_⟩
    · exact (grows_commits hcommits).exchanged (hw.each j m hm).2
    · subst hm
      obtain ⟨hnext, hapart⟩ := holdsRow_next hown.1 hpairs hcommits
      exact ⟨⟨hnext, exchanged_next hcommits⟩, hapart⟩

/-- In every interleaving of workers, retries, crashes, lost replies and changes of mode, the outbox and
the emulator agree. -/
theorem outbox_agrees_with_erp (settings : WorkerSettings) (isoformat : Instant → String)
    {start : Exchange} (hstart : start.Empty) {w : ExchangeWorld}
    (h : (exchangeProtocol settings isoformat emulated).Reachable (World.quiet start) w) :
    ErpAgreement w.committed := by
  have hempty : ErpSound start := by
    constructor
    · simp [hstart.deliveries]
    · simp [hstart.posts]
    · simp [hstart.deliveries]
    · simp [hstart.deliveries]
    · simp [hstart.replies]
    · simp [hstart.outbox]
  have hheld := invariant (P := AgreementHeld) (fun _ _ hw hstep => agreementHeld_step hw hstep)
    (held_quiet ⟨rowsSound_empty hstart, hempty⟩) h
  have herp := hheld.shared.2
  have hsuccess : ∀ r : Reply, r.status = 200 → 200 ≤ r.status ∧ r.status < 300 :=
    fun r hr => by rw [hr]; decide
  refine ⟨herp.ids, ?_, ?_, herp.payloads, fun row hmem hstate => ?_⟩
  · exact fun n reply hmem hstatus => (herp.replies n reply hmem (hsuccess reply hstatus)).2
  · intro m n reply reply' hm hn hstatus hstatus' body body' hbody hbody' hid
    obtain ⟨-, value, answer, hpost, hanswer, result, hparse, delivery, hin, hdelivery, rfl⟩ :=
      herp.replies m reply hm (hsuccess reply hstatus)
    obtain ⟨-, value', answer', hpost', hanswer', result', hparse', delivery', hin', hdelivery', rfl⟩ :=
      herp.replies n reply' hn (hsuccess reply' hstatus')
    rw [hpost, Option.bind_some, hparse] at hbody
    rw [hpost', Option.bind_some, hparse'] at hbody'
    cases hbody
    cases hbody'
    have hsame := eq_of_nodup_map herp.ids hin hin' (hdelivery.trans (hid.trans hdelivery'.symm))
    subst hsame
    have hbodies : reply.body = reply'.body := hanswer.trans hanswer'.symm
    have hstatuses : reply.status = reply'.status := hstatus.trans hstatus'.symm
    cases reply with
    | mk status body =>
      cases reply' with
      | mk status' body' =>
        obtain rfl : status = status' := hstatuses
        obtain rfl : body = body' := hbodies
        rfl
  · obtain ⟨delivery, hin, hid⟩ := herp.delivered row hmem hstate
    obtain ⟨hstatus, hack⟩ := herp.acks delivery hin
    exact ⟨delivery, hin, hid, hstatus, hack.trans hid⟩

/-! ## A lost reply -/

def emulatorExchange : Protocol Exchange ExchangeTransaction :=
  exchangeProtocol plainWorker (fun _ => "") emulated

def firstDelivery : Delivery := newDelivery {} lateResult ""

/-- The worker has sent the released message, and the emulator has answered in vain. -/
def unheard : Exchange :=
  { timedOut with
    erp := { deliveries := [firstDelivery] }
    replies := [(0, ⟨200, some (.obj firstDelivery.ack.fields)⟩)] }

theorem unheard_reachable : emulatorExchange.Reachable (World.quiet { clock := 0 }) (World.quiet unheard) := by
  have hbegins := alone_begins (p := emulatorExchange) { clock := 0 } (.releases lateResult)
  have hreleased := alone_commits hbegins (.releases lateResult (by decide) rfl)
  have hworks := hreleased.trans (alone_begins _ .works)
  have hpicks := alone_moves hworks (.picks (releaseRow lateResult 0) (List.mem_singleton.mpr rfl) rfl
    (others_alone _ _ _) fun other hother _ _ =>
      (congrArg OutboxRow.createdAt (List.mem_singleton.mp hother)).ge)
  have hposts := alone_advances hpicks (.posts (releaseRow lateResult 0))
  have hhandles := both_begins hposts (.handles 0)
  have hconsumes := both_advances hhandles (.consumes 0 lateResult.dump lateResult rfl rfl)
  have hdelivers := both_commits hconsumes (.delivers 0 lateResult .normal rfl)
  have hmeets := alone_moves hdelivers (.meets (releaseRow lateResult 0) 0 (.timeout "ReadTimeout") trivial)
  have hsettles := alone_commits hmeets (.settles _ _ _ _ _ _ rfl)
  have hwaits := hsettles.trans (alone_begins _ (.waits 2000000))
  have hlater := alone_commits hwaits (.waits 2000000 (by decide))
  exact hlater

/-- The second attempt is answered with the same acknowledgement. -/
def heard : Exchange :=
  { unheard with
    outbox := [{ timedOutRow.attempt with
      state := .delivered, deliveredAt := some 2000000, lastError := none }]
    posts := [lateResult.dump, lateResult.dump]
    replies := [(0, ⟨200, some (.obj firstDelivery.ack.fields)⟩), (1, ⟨200, some (.obj firstDelivery.ack.fields)⟩)]
    history := timedOut.history ++ [.sent "QR-1", .stored "QR-1" .delivered] }

theorem outbox_agrees_with_erp_heard : ErpAgreement heard := by
  have hworks := unheard_reachable.trans (alone_begins _ .works)
  have hpicks := alone_moves hworks (.picks timedOutRow (List.mem_singleton.mpr rfl) rfl
    (others_alone _ _ _) fun other hother _ _ =>
      (congrArg OutboxRow.createdAt (List.mem_singleton.mp hother)).ge)
  have hposts := alone_advances hpicks (.posts timedOutRow)
  have hhandles := both_begins hposts (.handles 1)
  have hconsumes := both_advances hhandles (.consumes 1 lateResult.dump lateResult rfl rfl)
  have hdelivers := both_commits hconsumes (.delivers 1 lateResult .normal rfl)
  have hmeets := alone_moves hdelivers (.meets timedOutRow 1 (.responds 200 (.ok (.obj firstDelivery.ack.fields)))
    (List.mem_append_right _ (List.mem_singleton.mpr rfl)))
  have hsettles := alone_commits hmeets (.settles _ _ _ _ _ _ rfl)
  exact outbox_agrees_with_erp plainWorker (fun _ => "") (w := World.quiet heard) ⟨rfl, rfl, rfl, rfl, rfl⟩ hsettles

end TraceQ.Properties
