import TraceQ.Security.Sessions

/-! # What the session endpoints keep

The tokens of a session form one chain: every token but the last was rotated into the next, and only
the last can be unrevoked, while its session is. A transaction that holds the row of a token finds it
unchanged when it commits.
-/
namespace TraceQ.Security
open Projections Quality Tables Transactions
set_option autoImplicit false
set_option maxHeartbeats 250000

/-! ## Chains of tokens -/

/-- The tokens of a session in the order they were issued. -/
def tokensOf (rows : List RefreshToken) (sessionId : Uuid) : List RefreshToken :=
  rows.filter fun row => decide (row.sessionId = sessionId)

/-- `a` was rotated into `b`. -/
def RotatedInto (a b : RefreshToken) : Prop :=
  a.replacedByHash = some b.tokenHash ∧ a.revokedAt.isSome = true

structure RotationChain (rows : List RefreshToken) : Prop where
  linked : rows.IsChain RotatedInto
  open_ : ∀ last, rows.getLast? = some last → last.replacedByHash = none

theorem rotationChain_nil : RotationChain [] := ⟨.nil, nofun⟩

theorem rotationChain_singleton {row : RefreshToken} (h : row.replacedByHash = none) :
    RotationChain [row] := ⟨.singleton row, fun last hlast => by cases hlast; exact h⟩

/-- Every token before the last one is revoked. -/
theorem isSome_of_isChain {rows : List RefreshToken} {last : RefreshToken}
    (h : (rows ++ [last]).IsChain RotatedInto) : ∀ row ∈ rows, row.revokedAt.isSome = true := by
  induction rows with
  | nil => exact nofun
  | cons head rest ih =>
    intro row hrow
    cases rest with
    | nil =>
      obtain rfl : row = head := by simpa using hrow
      simp only [List.cons_append, List.nil_append, List.isChain_cons_cons] at h
      exact h.1.2
    | cons next rest =>
      simp only [List.cons_append, List.isChain_cons_cons] at h ih
      rcases List.mem_cons.mp hrow with rfl | hmem
      · exact h.1.2
      · exact ih h.2 row hmem

/-- An unrevoked token is the last of its session. -/
theorem RotationChain.last {rows : List RefreshToken} (h : RotationChain rows) {record : RefreshToken}
    (hmem : record ∈ rows) (hopen : record.revokedAt = none) :
    ∃ front, rows = front ++ [record] ∧ ∀ row ∈ front, row.revokedAt.isSome = true := by
  cases rows using List.reverseRecOn with
  | nil => cases hmem
  | append_singleton front last =>
    have hfront := isSome_of_isChain h.linked
    rcases List.mem_append.mp hmem with hin | hlast
    · exact absurd (hfront record hin) (by simp [hopen])
    · obtain rfl : record = last := by simpa using hlast
      exact ⟨front, rfl, hfront⟩

/-- At most one token of a chain is unrevoked. -/
theorem RotationChain.atMostOne {rows : List RefreshToken} (h : RotationChain rows) :
    (rows.filter fun row => row.revokedAt.isNone).length ≤ 1 := by
  cases rows using List.reverseRecOn with
  | nil => simp
  | append_singleton front last =>
    have hnone : front.filter (fun row => row.revokedAt.isNone) = [] := by
      rw [List.filter_eq_nil_iff]
      intro row hrow
      simpa [Option.isSome_iff_ne_none] using isSome_of_isChain h.linked row hrow
    rw [List.filter_append, hnone, List.nil_append]
    exact (List.length_filter_le _ _).trans (by simp)

/-- The last token is rotated into a new one. -/
theorem RotationChain.rotates {front : List RefreshToken} {record rotated fresh : RefreshToken}
    (h : RotationChain (front ++ [record])) (hhash : rotated.tokenHash = record.tokenHash)
    (hinto : RotatedInto rotated fresh) (hfresh : fresh.replacedByHash = none) :
    RotationChain (front ++ [rotated, fresh]) := by
  refine ⟨?_, fun last hlast => ?_⟩
  · have hlinked := h.linked
    rw [List.isChain_append] at hlinked ⊢
    refine ⟨hlinked.1, by simp [hinto], fun a ha b hb => ?_⟩
    obtain rfl : rotated = b := by simpa using hb
    have hrecord := hlinked.2.2 a ha record (by simp)
    exact ⟨by rw [hrecord.1, hhash], hrecord.2⟩
  · rw [List.getLast?_append] at hlast
    obtain rfl : fresh = last := by simpa using hlast
    exact hfresh

/-- A change that keeps the links and revokes nothing less keeps the chain. -/
theorem RotationChain.map {rows : List RefreshToken} (h : RotationChain rows)
    {f : RefreshToken → RefreshToken} (hhash : ∀ row, (f row).tokenHash = row.tokenHash)
    (hlink : ∀ row, (f row).replacedByHash = row.replacedByHash)
    (hrevoked : ∀ row, row.revokedAt.isSome = true → (f row).revokedAt.isSome = true) :
    RotationChain (rows.map f) := by
  refine ⟨?_, fun last hlast => ?_⟩
  · rw [List.isChain_map]
    refine h.linked.imp fun a b hab => ?_
    exact ⟨by rw [hlink, hhash, hab.1], hrevoked a hab.2⟩
  · rw [List.getLast?_map] at hlast
    obtain ⟨old, hold, rfl⟩ := Option.map_eq_some_iff.mp hlast
    rw [hlink]
    exact h.open_ old hold

/-! ## Rows -/

theorem mem_of_findToken {rows : List RefreshToken} {hash : String} {record : RefreshToken}
    (h : findToken rows hash = some record) : record ∈ rows ∧ record.tokenHash = hash :=
  ⟨List.mem_of_find?_eq_some h, by simpa using List.find?_some h⟩

theorem mem_of_findSession {rows : List AuthSession} {id : Uuid} {session : AuthSession}
    (h : findSession rows id = some session) : session ∈ rows ∧ session.id = id :=
  ⟨List.mem_of_find?_eq_some h, by simpa using List.find?_some h⟩

theorem mem_of_findUser {rows : List User} {id : Uuid} {user : User}
    (h : findUser rows id = some user) : user ∈ rows ∧ user.id = id :=
  ⟨List.mem_of_find?_eq_some h, by simpa using List.find?_some h⟩

theorem fresh_of_findToken {rows : List RefreshToken} {hash : String} (h : findToken rows hash = none) :
    ∀ row ∈ rows, row.tokenHash ≠ hash := by simpa [findToken] using h

theorem fresh_of_findSession {rows : List AuthSession} {id : Uuid} (h : findSession rows id = none) :
    ∀ row ∈ rows, row.id ≠ id := by simpa [findSession] using h

/-- A session that is there is found. -/
theorem findSession_of_mem {rows : List AuthSession} {session : AuthSession} (h : session ∈ rows) :
    ∃ found, findSession rows session.id = some found := by
  cases hfind : findSession rows session.id with
  | some found => exact ⟨found, rfl⟩
  | none => exact absurd rfl (fresh_of_findSession hfind session h)

/-- The tokens of other sessions are not concerned. -/
theorem tokensOf_rotateToken_other {record fresh : RefreshToken} {now : Instant} {successor : String}
    {rows : List RefreshToken} {id : Uuid} (hid : record.sessionId ≠ id)
    (hmem : record ∈ rows) (hhashes : (rows.map (·.tokenHash)).Nodup)
    (hfresh : fresh.sessionId = record.sessionId) :
    tokensOf (rotateToken record now successor (rows ++ [fresh])) id = tokensOf rows id := by
  rw [tokensOf, rotateToken, filter_modifyWhere (f := RefreshToken.rotate now successor) (fun _ => rfl), List.filter_append]
  have hnone : [fresh].filter (fun row => decide (row.sessionId = id)) = [] := by
    simp [hfresh, hid]
  rw [hnone, List.append_nil]
  refine modifyWhere_eq_self fun row hrow hsame => ?_
  rw [List.mem_filter] at hrow
  have heq : row = record := eq_of_nodup_map hhashes hrow.1 hmem (by simpa using hsame)
  exact absurd (by simpa [heq] using hrow.2) hid

/-- The last token of the session is replaced by its rotated form and the fresh one. -/
theorem tokensOf_rotateToken {record fresh : RefreshToken} {now : Instant} {successor : String}
    {rows front : List RefreshToken} (hhashes : ((rows ++ [fresh]).map (·.tokenHash)).Nodup)
    (hfront : tokensOf rows record.sessionId = front ++ [record])
    (hfresh : fresh.sessionId = record.sessionId) :
    tokensOf (rotateToken record now successor (rows ++ [fresh])) record.sessionId =
      front ++ [record.rotate now successor, fresh] := by
  have hall : (rows ++ [fresh]).filter (fun row => decide (row.sessionId = record.sessionId)) =
      front ++ [record] ++ [fresh] := by
    rw [List.filter_append, ← hfront]
    simp [tokensOf, hfresh]
  have hnodup : ((front ++ [record] ++ [fresh]).map (·.tokenHash)).Nodup := by
    rw [← hall]
    exact hhashes.sublist (List.filter_sublist.map _)
  rw [tokensOf, rotateToken, filter_modifyWhere (f := RefreshToken.rotate now successor) (fun _ => rfl), hall]
  simp only [List.append_assoc, List.map_append, List.map_cons, List.map_nil,
    List.nodup_append, List.nodup_cons, List.mem_cons, List.cons_append, List.nil_append] at hnodup
  have hfreshHash : fresh.tokenHash ≠ record.tokenHash := by
    intro heq
    exact hnodup.2.1.1 (.inl heq.symm)
  have hothers : ∀ row ∈ front, row.tokenHash ≠ record.tokenHash := fun row hrow =>
    hnodup.2.2 row.tokenHash (List.mem_map_of_mem hrow) record.tokenHash (.inl rfl)
  simp only [modifyWhere, List.append_assoc, List.map_append, List.map_cons, List.map_nil,
    List.cons_append, List.nil_append, decide_true, if_true, hfreshHash, decide_false,
    Bool.false_eq_true, if_false]
  rw [List.map_congr_left (g := id) fun row hrow => by simp [hothers row hrow], List.map_id]

/-- A token whose row is not rotated stays. -/
theorem mem_rotateToken {record row : RefreshToken} {now : Instant} {successor : String}
    {rows : List RefreshToken} (h : row ∈ rows) (hne : row.tokenHash ≠ record.tokenHash) :
    row ∈ rotateToken record now successor rows := by
  have hkeeps : ∀ old : RefreshToken, old.tokenHash = record.tokenHash →
      (RefreshToken.rotate now successor old).tokenHash = record.tokenHash := fun _ h => h
  exact (mem_modifyWhere_other hkeeps hne).mpr h

theorem mem_revokeTokens {hashes : List String} {row : RefreshToken} {now : Instant}
    {rows : List RefreshToken} (h : row ∈ rows) (hne : row.tokenHash ∉ hashes) :
    row ∈ revokeTokens hashes now rows :=
  mem_modifyWhere.mpr ⟨row, h, by simp [hne]⟩

@[simp] theorem map_tokenHash_rotateToken (record : RefreshToken) (now : Instant)
    (successor : String) (rows : List RefreshToken) :
    (rotateToken record now successor rows).map (·.tokenHash) = rows.map (·.tokenHash) :=
  map_modifyWhere (f := RefreshToken.rotate now successor) (fun _ => rfl) rows

@[simp] theorem map_tokenHash_revokeTokens (hashes : List String) (now : Instant)
    (rows : List RefreshToken) :
    (revokeTokens hashes now rows).map (·.tokenHash) = rows.map (·.tokenHash) :=
  map_modifyWhere (f := RefreshToken.revoke now) (fun _ => rfl) rows

/-! ## The invariant -/

/-- The token whose row an answered refresh presented. -/
def AuthEvent.rotated? : AuthEvent → Option String
  | .refreshed presented _ _ => some presented
  | _ => none

structure TokensSound (settings : AuthSettings) (tables : AuthTables) : Prop where
  hashes : (tables.tokens.map (·.tokenHash)).Nodup
  ids : (tables.sessions.map AuthSession.id).Nodup
  owned : ∀ token ∈ tables.tokens, ∃ session ∈ tables.sessions, session.id = token.sessionId
  chains : ∀ id, RotationChain (tokensOf tables.tokens id)
  /-- A revoked session has no unrevoked token. -/
  ended : ∀ session ∈ tables.sessions, session.revokedAt.isSome = true →
    ∀ token ∈ tables.tokens, token.sessionId = session.id → token.revokedAt.isSome = true
  /-- A token that is revoked and was not rotated was revoked with its session. -/
  cut : ∀ token ∈ tables.tokens, token.revokedAt.isSome = true → token.replacedByHash = none →
    ∃ session ∈ tables.sessions, session.id = token.sessionId ∧ session.revokedAt.isSome = true
  /-- A token that `refresh` accepted names the token it answered with. -/
  rotated : ∀ presented time response, .refreshed presented time response ∈ tables.answers →
    ∃ token ∈ tables.tokens, token.tokenHash = settings.tokenHash presented ∧
      token.sessionId = response.accessToken.sessionId ∧ token.revokedAt.isSome = true ∧
      token.replacedByHash = some (settings.tokenHash response.refreshToken)
  once : (tables.answers.filterMap AuthEvent.rotated?).Nodup

/-- What the holder of a token row knows of it, and what it has read beside it. -/
def Fits (settings : AuthSettings) (tables : AuthTables) : AuthTransaction → Prop
  | .refreshLocked presented (some record) =>
      record ∈ tables.tokens ∧ record.tokenHash = settings.tokenHash presented
  | .refreshChecked presented record _ _ =>
      record ∈ tables.tokens ∧ record.tokenHash = settings.tokenHash presented ∧
        record.revokedAt = none
  | .refreshResponded presented record _ _ found issue =>
      record ∈ tables.tokens ∧ record.tokenHash = settings.tokenHash presented ∧
        record.revokedAt = none ∧ issue.sessionId = record.sessionId ∧
        ∃ read, found = some read ∧ read.id = record.sessionId
  | .logoutLocked presented (some record) =>
      record ∈ tables.tokens ∧ record.tokenHash = settings.tokenHash presented
  | .logoutRead presented record _ found =>
      record ∈ tables.tokens ∧ record.tokenHash = settings.tokenHash presented ∧
        record.revokedAt = none ∧
        ∃ read, found = some read ∧ read.id = record.sessionId ∧ read.revokedAt = none
  | .logoutListed presented record _ found siblings =>
      record ∈ tables.tokens ∧ record.tokenHash = settings.tokenHash presented ∧
        record.revokedAt = none ∧
        (∃ read, found = some read ∧ read.id = record.sessionId ∧ read.revokedAt = none) ∧
        ∀ hash ∈ siblings, hash = record.tokenHash
  | _ => True

/-- Two transactions hold the rows of different tokens. -/
def Apart (l m : AuthTransaction) : Prop :=
  ∀ a b, l.record? = some a → m.record? = some b → a.tokenHash ≠ b.tokenHash

theorem apart_symm (l m : AuthTransaction) (h : Apart l m) : Apart m l :=
  fun a b ha hb => (h b a hb ha).symm

theorem apart_of_none {l : AuthTransaction} (h : l.record? = none) (m : AuthTransaction) : Apart l m := by
  intro a b ha
  rw [h] at ha
  cases ha

/-- What a transaction knows holds as long as the row it holds is there. -/
theorem Fits.keeps {settings : AuthSettings} {t u : AuthTables} {l : AuthTransaction}
    (h : Fits settings t l) (hkeep : ∀ record, l.record? = some record → record ∈ t.tokens →
      record ∈ u.tokens) : Fits settings u l := by
  cases l with
  | refreshLocked presented record =>
    cases record with
    | none => trivial
    | some record => exact ⟨hkeep record rfl h.1, h.2⟩
  | refreshChecked presented record now user => exact ⟨hkeep record rfl h.1, h.2⟩
  | refreshResponded presented record now user found issue => exact ⟨hkeep record rfl h.1, h.2⟩
  | logoutLocked presented record =>
    cases record with
    | none => trivial
    | some record => exact ⟨hkeep record rfl h.1, h.2⟩
  | logoutRead presented record now found => exact ⟨hkeep record rfl h.1, h.2⟩
  | logoutListed presented record now found siblings => exact ⟨hkeep record rfl h.1, h.2⟩
  | _ => trivial

section Sound
variable {settings : AuthSettings} {t u : AuthTables}

/-- The session of an unrevoked token is unrevoked. -/
theorem TokensSound.alive (h : TokensSound settings t) {record : RefreshToken}
    (hmem : record ∈ t.tokens) (hopen : record.revokedAt = none) {session : AuthSession}
    (hsession : session ∈ t.sessions) (hid : session.id = record.sessionId) :
    session.revokedAt = none := by
  cases hrevoked : session.revokedAt with
  | none => rfl
  | some time =>
    have hsome := h.ended session hsession (by simp [hrevoked]) record hmem hid.symm
    simp [hopen] at hsome

/-- The session of a token is found. -/
theorem TokensSound.found (h : TokensSound settings t) {record : RefreshToken}
    (hmem : record ∈ t.tokens) : ∃ read, findSession t.sessions record.sessionId = some read ∧
      read ∈ t.sessions ∧ read.id = record.sessionId := by
  obtain ⟨session, hsession, hid⟩ := h.owned record hmem
  obtain ⟨read, hread⟩ := findSession_of_mem hsession
  rw [hid] at hread
  exact ⟨read, hread, mem_of_findSession hread⟩

/-- The unrevoked tokens of the session of an unrevoked token are that token. -/
theorem TokensSound.only (h : TokensSound settings t) {record row : RefreshToken}
    (hmem : record ∈ t.tokens) (hopen : record.revokedAt = none) (hrow : row ∈ t.tokens)
    (hsession : row.sessionId = record.sessionId) (hrowOpen : row.revokedAt = none) : row = record := by
  have hin : record ∈ tokensOf t.tokens record.sessionId := by simp [tokensOf, hmem]
  obtain ⟨front, hfront, hrevoked⟩ := (h.chains record.sessionId).last hin hopen
  have hrowIn : row ∈ front ++ [record] := by
    rw [← hfront]
    simp [tokensOf, hrow, hsession]
  rcases List.mem_append.mp hrowIn with hmemFront | hlast
  · exact absurd (hrevoked row hmemFront) (by simp [hrowOpen])
  · simpa using hlast

/-- A commit that touches neither sessions nor tokens, and answers no refresh. -/
theorem TokensSound.keeps (h : TokensSound settings t) (hsessions : u.sessions = t.sessions)
    (htokens : u.tokens = t.tokens)
    (hanswers : u.answers = t.answers ∨ ∃ e, u.answers = t.answers ++ [e] ∧ e.rotated? = none) :
    TokensSound settings u := by
  refine ⟨htokens ▸ h.hashes, hsessions ▸ h.ids, ?_, ?_, ?_, ?_, ?_, ?_⟩
  · rw [hsessions, htokens]
    exact h.owned
  · rw [htokens]
    exact h.chains
  · rw [hsessions, htokens]
    exact h.ended
  · rw [hsessions, htokens]
    exact h.cut
  · intro presented time response hmem
    rw [htokens]
    rcases hanswers with hsame | ⟨e, happend, hother⟩
    · exact h.rotated presented time response (hsame ▸ hmem)
    · rw [happend] at hmem
      rcases List.mem_append.mp hmem with hold | hnew
      · exact h.rotated presented time response hold
      · rw [← List.mem_singleton.mp hnew] at hother
        cases hother
  · rcases hanswers with hsame | ⟨e, happend, hother⟩
    · rw [hsame]
      exact h.once
    · rw [happend, List.filterMap_append]
      simpa [List.filterMap_cons, hother] using h.once

/-! ## A login -/

theorem TokensSound.logsIn (h : TokensSound settings t) {user : User} {issue : Issue} {e : AuthEvent}
    (hsession : findSession t.sessions issue.sessionId = none)
    (htoken : findToken t.tokens (settings.tokenHash issue.rawRefresh) = none)
    (hsessions : u.sessions = t.sessions ++ [issue.session settings user])
    (htokens : u.tokens = t.tokens ++ [issue.record settings user])
    (hanswers : u.answers = t.answers ++ [e]) (hother : e.rotated? = none) :
    TokensSound settings u := by
  have hnew := fresh_of_findSession hsession
  have hunowned : ∀ token ∈ t.tokens, token.sessionId ≠ issue.sessionId := by
    intro token htoken heq
    obtain ⟨session, hmem, hid⟩ := h.owned token htoken
    exact hnew session hmem (hid.trans heq)
  refine ⟨?_, ?_, ?_, ?_, ?_, ?_, ?_, ?_⟩
  · rw [htokens]
    exact nodup_map_append h.hashes fun old hold => fresh_of_findToken htoken old hold
  · rw [hsessions]
    exact nodup_map_append h.ids hnew
  · rw [hsessions, htokens]
    intro token hmem
    rcases List.mem_append.mp hmem with hold | hlast
    · obtain ⟨session, hin, hid⟩ := h.owned token hold
      exact ⟨session, List.mem_append_left _ hin, hid⟩
    · obtain rfl : token = issue.record settings user := by simpa using hlast
      exact ⟨issue.session settings user, by simp, rfl⟩
  · rw [htokens]
    intro id
    by_cases hid : issue.sessionId = id
    · have hnone : tokensOf t.tokens id = [] := by
        rw [tokensOf, List.filter_eq_nil_iff]
        intro token htoken
        simpa [← hid] using hunowned token htoken
      have honly : tokensOf (t.tokens ++ [issue.record settings user]) id =
          [issue.record settings user] := by
        rw [tokensOf, List.filter_append, ← tokensOf, hnone, List.nil_append]
        simp [Issue.record, hid]
      rw [honly]
      exact rotationChain_singleton rfl
    · have hsame : tokensOf (t.tokens ++ [issue.record settings user]) id = tokensOf t.tokens id := by
        rw [tokensOf, List.filter_append, ← tokensOf]
        simp [Issue.record, hid]
      rw [hsame]
      exact h.chains id
  · rw [hsessions, htokens]
    intro session hin hrevoked token hmem hid
    rcases List.mem_append.mp hin with hold | hlast
    · rcases List.mem_append.mp hmem with htokenOld | htokenNew
      · exact h.ended session hold hrevoked token htokenOld hid
      · obtain rfl : token = issue.record settings user := by simpa using htokenNew
        exact absurd hid.symm (hnew session hold)
    · obtain rfl : session = issue.session settings user := by simpa using hlast
      cases hrevoked
  · rw [hsessions, htokens]
    intro token hmem hrevoked hlink
    rcases List.mem_append.mp hmem with hold | hlast
    · obtain ⟨session, hin, hid, hsome⟩ := h.cut token hold hrevoked hlink
      exact ⟨session, List.mem_append_left _ hin, hid, hsome⟩
    · obtain rfl : token = issue.record settings user := by simpa using hlast
      cases hrevoked
  · intro presented time response hmem
    rw [hanswers] at hmem
    rcases List.mem_append.mp hmem with hold | hlast
    · obtain ⟨token, hin, hrest⟩ := h.rotated presented time response hold
      exact ⟨token, by rw [htokens]; exact List.mem_append_left _ hin, hrest⟩
    · rw [← List.mem_singleton.mp hlast] at hother
      cases hother
  · rw [hanswers, List.filterMap_append]
    simpa [List.filterMap_cons, hother] using h.once

/-! ## A rotation -/

/-- The rows after `_token_response` are those before with other times. -/
theorem mem_renewed {issue : Issue} {user : User} {read row : AuthSession} {rows : List AuthSession}
    (h : row ∈ issue.sessions settings user (some read) rows) :
    ∃ old ∈ rows, row.id = old.id ∧ row.userId = old.userId ∧ row.revokedAt = old.revokedAt := by
  obtain ⟨old, hold, rfl⟩ := mem_modifyWhere.mp h
  refine ⟨old, hold, ?_⟩
  split
  · exact ⟨rfl, rfl, rfl⟩
  · exact ⟨rfl, rfl, rfl⟩

theorem renewed_of_mem (settings : AuthSettings) (issue : Issue) (user : User) (read : AuthSession)
    {old : AuthSession} {rows : List AuthSession} (h : old ∈ rows) : ∃ row ∈ issue.sessions settings user (some read) rows,
      row.id = old.id ∧ row.revokedAt = old.revokedAt := by
  refine ⟨_, mem_modifyWhere.mpr ⟨old, h, rfl⟩, ?_⟩
  split
  · exact ⟨rfl, rfl⟩
  · exact ⟨rfl, rfl⟩

theorem TokensSound.rotates (h : TokensSound settings t) {presented : String} {record : RefreshToken}
    {now : Instant} {user : User} {found : Option AuthSession} {issue : Issue}
    (hfits : Fits settings t (.refreshResponded presented record now user found issue))
    (htoken : findToken t.tokens (settings.tokenHash issue.rawRefresh) = none)
    (hsessions : u.sessions = issue.sessions settings user found t.sessions)
    (htokens : u.tokens = rotateToken record now (settings.tokenHash issue.rawRefresh)
      (t.tokens ++ [issue.record settings user]))
    (hanswers : u.answers = t.answers ++
      [.refreshed presented issue.authenticated (issue.response settings user)]) :
    TokensSound settings u := by
  obtain ⟨hmem, hhash, hopen, hissue, read, rfl, hread⟩ := hfits
  have hfresh := fresh_of_findToken htoken
  have hnodup : ((t.tokens ++ [issue.record settings user]).map (·.tokenHash)).Nodup :=
    nodup_map_append h.hashes fun old hold => hfresh old hold
  have hnewHash : (issue.record settings user).tokenHash ≠ record.tokenHash :=
    (hfresh record hmem).symm
  -- every row is the rotated one, the new one, or one as before
  have hrows : ∀ token ∈ u.tokens, token = record.rotate now (settings.tokenHash issue.rawRefresh) ∨
      token = issue.record settings user ∨ token ∈ t.tokens ∧ token ≠ record := by
    intro token hin
    rw [htokens, rotateToken] at hin
    obtain ⟨old, hold, heq⟩ := mem_modifyWhere.mp hin
    rcases List.mem_append.mp hold with hbefore | hlast
    · by_cases hsame : old.tokenHash = record.tokenHash
      · obtain rfl : old = record := eq_of_nodup_map h.hashes hbefore hmem hsame
        exact .inl (by simpa using heq)
      · simp only [hsame, decide_false, Bool.false_eq_true, if_false] at heq
        subst heq
        exact .inr (.inr ⟨hbefore, fun heq => hsame (by rw [heq])⟩)
    · obtain rfl : old = issue.record settings user := by simpa using hlast
      simp only [hnewHash, decide_false, Bool.false_eq_true, if_false] at heq
      exact .inr (.inl heq)
  have hnever : ∀ time response, .refreshed presented time response ∉ t.answers := by
    intro time response hevent
    obtain ⟨token, hin, htokenHash, -, hsome, -⟩ := h.rotated presented time response hevent
    rw [eq_of_nodup_map h.hashes hin hmem (htokenHash.trans hhash.symm), hopen] at hsome
    cases hsome
  have hrotated : record.rotate now (settings.tokenHash issue.rawRefresh) ∈ u.tokens := by
    rw [htokens]
    exact mem_modifyWhere.mpr ⟨record, List.mem_append_left _ hmem, by simp⟩
  refine ⟨?_, ?_, ?_, ?_, ?_, ?_, ?_, ?_⟩
  · rw [htokens, map_tokenHash_rotateToken]
    exact hnodup
  · have hids : (issue.sessions settings user (some read) t.sessions).map AuthSession.id =
        t.sessions.map AuthSession.id :=
      map_modifyWhere (f := issue.renews settings read) (fun _ => rfl) t.sessions
    rw [hsessions, hids]
    exact h.ids
  · intro token hin
    have hid : ∃ old ∈ t.tokens, old.sessionId = token.sessionId := by
      rcases hrows token hin with rfl | rfl | ⟨hold, -⟩
      · exact ⟨record, hmem, rfl⟩
      · exact ⟨record, hmem, hissue.symm⟩
      · exact ⟨token, hold, rfl⟩
    obtain ⟨old, hold, hsame⟩ := hid
    obtain ⟨session, hsession, howner⟩ := h.owned old hold
    obtain ⟨row, hrow, hrowId, -⟩ :=
      renewed_of_mem settings issue user read hsession
    exact ⟨row, by rw [hsessions]; exact hrow, by rw [hrowId, howner, hsame]⟩
  · intro id
    rw [htokens]
    by_cases hid : record.sessionId = id
    · subst hid
      have hin : record ∈ tokensOf t.tokens record.sessionId := by simp [tokensOf, hmem]
      obtain ⟨front, hfront, -⟩ := (h.chains record.sessionId).last hin hopen
      rw [tokensOf_rotateToken hnodup hfront hissue]
      have hchain := h.chains record.sessionId
      rw [hfront] at hchain
      exact hchain.rotates rfl ⟨rfl, rfl⟩ rfl
    · rw [tokensOf_rotateToken_other hid hmem h.hashes hissue]
      exact h.chains id
  · intro session hsession hrevoked token hin hid
    rw [hsessions] at hsession
    obtain ⟨old, hold, hsame, -, hkept⟩ := mem_renewed hsession
    rw [hkept] at hrevoked
    rw [hsame] at hid
    have halive : record.sessionId ≠ old.id := by
      intro heq
      rw [h.alive hmem hopen hold heq.symm] at hrevoked
      cases hrevoked
    rcases hrows token hin with rfl | rfl | ⟨hbefore, -⟩
    · exact absurd hid halive
    · exact absurd (hissue.symm.trans hid) halive
    · exact h.ended old hold hrevoked token hbefore hid
  · intro token hin hsome hlink
    rcases hrows token hin with rfl | rfl | ⟨hbefore, -⟩
    · cases hlink
    · cases hsome
    · obtain ⟨session, hsession, hid, hrevoked⟩ := h.cut token hbefore hsome hlink
      obtain ⟨row, hrow, hrowId, hkept⟩ :=
        renewed_of_mem settings issue user read hsession
      exact ⟨row, by rw [hsessions]; exact hrow, hrowId.trans hid, by rw [hkept]; exact hrevoked⟩
  · intro raw time response hevent
    rw [hanswers] at hevent
    rcases List.mem_append.mp hevent with hold | hlast
    · obtain ⟨token, hin, htokenHash, hsame, hsome, hlink⟩ := h.rotated raw time response hold
      have hne : token.tokenHash ≠ record.tokenHash := by
        intro heq
        rw [eq_of_nodup_map h.hashes hin hmem heq, hopen] at hsome
        cases hsome
      refine ⟨token, ?_, htokenHash, hsame, hsome, hlink⟩
      rw [htokens]
      exact mem_rotateToken (List.mem_append_left _ hin) hne
    · have heq := List.mem_singleton.mp hlast
      cases heq
      exact ⟨_, hrotated, hhash, hissue.symm, rfl, rfl⟩
  · rw [hanswers, List.filterMap_append, List.nodup_append]
    refine ⟨h.once, by simp [AuthEvent.rotated?], ?_⟩
    intro a ha b hb
    obtain ⟨e, he, hea⟩ := List.mem_filterMap.mp ha
    obtain rfl : presented = b := by simpa [AuthEvent.rotated?, eq_comm] using hb
    rintro rfl
    cases e with
    | refreshed raw time response =>
      cases hea
      exact hnever time response he
    | _ => cases hea

/-! ## A logout -/

theorem TokensSound.revokes (h : TokensSound settings t) {presented : String} {record : RefreshToken}
    {now : Instant} {found : Option AuthSession} {siblings : List String} {e : AuthEvent}
    (hfits : Fits settings t (.logoutListed presented record now found siblings))
    (hsessions : u.sessions = revokeSession found now t.sessions)
    (htokens : u.tokens = revokeTokens (record.tokenHash :: siblings) now t.tokens)
    (hanswers : u.answers = t.answers ++ [e]) (hother : e.rotated? = none) :
    TokensSound settings u ∧
      ∃ session ∈ u.sessions, session.id = record.sessionId ∧ session.revokedAt.isSome = true := by
  obtain ⟨hmem, -, hopen, ⟨read, rfl, hread, hunrevoked⟩, hsiblings⟩ := hfits
  -- the siblings found are the presented token, so that one row is revoked
  have hnames : ∀ token : RefreshToken, token.tokenHash ∈ record.tokenHash :: siblings ↔
      token.tokenHash = record.tokenHash := by
    intro token
    rw [List.mem_cons]
    exact ⟨fun hin => hin.elim id (hsiblings _), .inl⟩
  have hrows : ∀ token ∈ u.tokens, token = record.revoke now ∨ token ∈ t.tokens ∧ token ≠ record := by
    intro token hin
    rw [htokens, revokeTokens] at hin
    obtain ⟨old, hold, heq⟩ := mem_modifyWhere.mp hin
    by_cases hsame : old.tokenHash = record.tokenHash
    · obtain rfl : old = record := eq_of_nodup_map h.hashes hold hmem hsame
      exact .inl (by simpa using heq)
    · simp only [hnames, hsame, decide_false, Bool.false_eq_true, if_false] at heq
      subst heq
      exact .inr ⟨hold, fun heq => hsame (by rw [heq])⟩
  have hrevoke : u.sessions =
      modifyWhere (fun row => decide (row.id = read.id)) (AuthSession.revoke now) t.sessions := by
    rw [hsessions]
    simp only [revokeSession, hunrevoked, if_true]
  have hkept : ∀ session ∈ t.sessions, ∃ row ∈ u.sessions, row.id = session.id ∧
      (session.revokedAt.isSome = true → row.revokedAt.isSome = true) ∧
      (session.id = record.sessionId → row.revokedAt.isSome = true) := by
    intro session hin
    rw [hrevoke]
    by_cases hid : session.id = read.id
    · exact ⟨session.revoke now, mem_modifyWhere.mpr ⟨session, hin, by simp [hid]⟩, rfl, fun _ => rfl,
        fun _ => rfl⟩
    · exact ⟨session, mem_modifyWhere.mpr ⟨session, hin, by simp [hid]⟩, rfl, id,
        fun heq => absurd (heq.trans hread.symm) hid⟩
  refine ⟨⟨?_, ?_, ?_, ?_, ?_, ?_, ?_, ?_⟩, ?_⟩
  · rw [htokens, map_tokenHash_revokeTokens]
    exact h.hashes
  · have hids : u.sessions.map AuthSession.id = t.sessions.map AuthSession.id := by
      rw [hrevoke]
      exact map_modifyWhere (f := AuthSession.revoke now) (fun _ => rfl) t.sessions
    rw [hids]
    exact h.ids
  · intro token hin
    have hid : ∃ old ∈ t.tokens, old.sessionId = token.sessionId := by
      rcases hrows token hin with rfl | ⟨hold, -⟩
      · exact ⟨record, hmem, rfl⟩
      · exact ⟨token, hold, rfl⟩
    obtain ⟨old, hold, hsame⟩ := hid
    obtain ⟨session, hsession, howner⟩ := h.owned old hold
    obtain ⟨row, hrow, hrowId, -⟩ := hkept session hsession
    exact ⟨row, hrow, by rw [hrowId, howner, hsame]⟩
  · intro id
    rw [htokens, tokensOf, revokeTokens,
      filter_modifyWhere (f := RefreshToken.revoke now) (fun _ => rfl)]
    refine (h.chains id).map (fun row => ?_) (fun row => ?_) (fun row hrow => ?_)
    · split <;> rfl
    · split <;> rfl
    · split
      · rfl
      · exact hrow
  · intro session hsession hrevoked token hin hid
    rcases hrows token hin with rfl | ⟨hbefore, hne⟩
    · rfl
    · rw [hrevoke] at hsession
      obtain ⟨old, hold, rfl⟩ := mem_modifyWhere.mp hsession
      by_cases hsame : old.id = read.id
      · cases htokenOpen : token.revokedAt with
        | some time => rfl
        | none =>
          simp only [hsame, decide_true, if_true] at hid
          exact absurd (h.only hmem hopen hbefore (hid.trans (hsame.trans hread)) htokenOpen) hne
      · simp only [hsame, decide_false, Bool.false_eq_true, if_false] at hrevoked hid
        exact h.ended old hold hrevoked token hbefore hid
  · intro token hin hsome hlink
    rcases hrows token hin with rfl | ⟨hbefore, -⟩
    · obtain ⟨session, hsession, hid⟩ := h.owned record hmem
      obtain ⟨row, hrow, hrowId, -, hrow'⟩ := hkept session hsession
      exact ⟨row, hrow, hrowId.trans hid, hrow' hid⟩
    · obtain ⟨session, hsession, hid, hrevoked⟩ := h.cut token hbefore hsome hlink
      obtain ⟨row, hrow, hrowId, hrow', -⟩ := hkept session hsession
      exact ⟨row, hrow, hrowId.trans hid, hrow' hrevoked⟩
  · intro raw time response hevent
    rw [hanswers] at hevent
    rcases List.mem_append.mp hevent with hold | hlast
    · obtain ⟨token, hin, htokenHash, hsame, hsome, hlink⟩ := h.rotated raw time response hold
      refine ⟨token, ?_, htokenHash, hsame, hsome, hlink⟩
      rw [htokens]
      refine mem_revokeTokens hin ?_
      rw [hnames]
      intro heq
      rw [eq_of_nodup_map h.hashes hin hmem heq, hopen] at hsome
      cases hsome
    · rw [← List.mem_singleton.mp hlast] at hother
      cases hother
  · rw [hanswers, List.filterMap_append]
    simpa [List.filterMap_cons, hother] using h.once
  · obtain ⟨session, hsession, hid⟩ := h.owned record hmem
    obtain ⟨row, hrow, hrowId, -, hrow'⟩ := hkept session hsession
    exact ⟨row, hrow, hrowId.trans hid, hrow' hid⟩

end Sound

/-! ## Admissions -/

/-- A critical request is refused or finds the session fresh. -/
theorem requireCriticalPermission_cases (request : CriticalRequest) (principal : Principal)
    (session : AuthSession) (now : Instant) :
    (∃ error, requireCriticalPermission request principal session now = .refused error) ∨
      requireCriticalPermission request principal session now =
          .admitted principal request.freshnessMinutes now ∧
        now - minutes request.freshnessMinutes ≤ session.lastAuthenticatedAt := by
  unfold requireCriticalPermission
  split
  · exact .inl ⟨_, rfl⟩
  split
  · exact .inl ⟨_, rfl⟩
  split
  · exact .inl ⟨_, rfl⟩
  · rename_i hfresh
    exact .inr ⟨rfl, not_lt.mp hfresh⟩

/-- The session of an admitted principal is there and unrevoked. -/
theorem session_of_currentPrincipal {settings : AuthSettings} {t : AuthTables}
    {credentials : Option (String × String)} {now : Instant} {principal : Principal}
    {session : AuthSession}
    (h : currentPrincipal settings t credentials now = .ok (principal, session)) :
    session ∈ t.sessions ∧ session.id = principal.sessionId ∧ session.userId = principal.userId ∧
      session.revokedAt = none := by
  unfold currentPrincipal at h
  split at h
  · cases h
  split at h
  · cases h
  split at h
  · cases h
  split at h
  · rename_i userId id _ user found huser hsession
    split at h
    · cases h
    · rename_i hvalid
      simp only [Bool.or_eq_true, Bool.not_eq_true', decide_eq_true_eq, not_or, not_not,
        Bool.not_eq_false, Bool.not_eq_true, Option.isSome_eq_false_iff, Option.isNone_iff_eq_none]
        at hvalid
      cases h
      exact ⟨(mem_of_findSession hsession).1, (mem_of_findSession hsession).2,
        hvalid.1.1.2.trans (mem_of_findUser huser).2.symm, hvalid.1.2⟩
  · cases h

/-! ## Every step -/

section Steps
variable {settings : AuthSettings} {w : AuthWorld} {i : ℕ} {l l' : AuthTransaction}

theorem others_apart {presented : String} (hfree : TokenFree w i (settings.tokenHash presented))
    (hl : ∀ record, l.record? = some record → record.tokenHash = settings.tokenHash presented) :
    w.Others i (Apart l) := by
  intro j m hj hm a b ha hb heq
  exact hfree j m hj hm b hb (heq ▸ hl a ha)

theorem fits_moves (hsound : TokensSound settings w.committed) (hfits : Fits settings w.committed l)
    (h : AuthMoves settings w i l l') : Fits settings w.committed l' := by
  cases h with
  | refreshLocks presented hfree =>
    cases hfind : findToken w.committed.tokens (settings.tokenHash presented) with
    | none => trivial
    | some record => exact mem_of_findToken hfind
  | refreshChecks presented record user hrevoked hexpires huser henabled =>
    exact ⟨hfits.1, hfits.2, hrevoked⟩
  | refreshResponds presented record now user issue htimes hsession =>
    obtain ⟨read, hfound, -, hid⟩ := hsound.found hfits.1
    exact ⟨hfits.1, hfits.2.1, hfits.2.2, hsession, read, hfound, hid⟩
  | logoutLocks presented hfree =>
    cases hfind : findToken w.committed.tokens (settings.tokenHash presented) with
    | none => trivial
    | some record => exact mem_of_findToken hfind
  | logoutReads presented record hopen =>
    obtain ⟨read, hfound, hin, hid⟩ := hsound.found hfits.1
    exact ⟨hfits.1, hfits.2, hopen, read, hfound, hid, hsound.alive hfits.1 hopen hin hid⟩
  | logoutLists presented record now found =>
    refine ⟨hfits.1, hfits.2.1, hfits.2.2.1, hfits.2.2.2, fun hash hin => ?_⟩
    obtain ⟨token, htoken, rfl⟩ := List.mem_map.mp hin
    simp only [List.mem_filter, Bool.and_eq_true, decide_eq_true_eq, Option.isNone_iff_eq_none]
      at htoken
    rw [hsound.only hfits.1 hfits.2.2.1 htoken.1 htoken.2.1 htoken.2.2]
  | _ => trivial

theorem apart_moves (hpairs : w.Others i (Apart l)) (h : AuthMoves settings w i l l') :
    w.Others i (Apart l') := by
  cases h with
  | refreshLocks presented hfree =>
    exact others_apart hfree fun record hrecord => (mem_of_findToken hrecord).2
  | logoutLocks presented hfree =>
    exact others_apart hfree fun record hrecord => (mem_of_findToken hrecord).2
  | refreshChecks presented record user hrevoked hexpires huser henabled => exact hpairs
  | refreshResponds presented record now user issue htimes hsession => exact hpairs
  | logoutReads presented record hopen => exact hpairs
  | logoutLists presented record now found => exact hpairs
  | _ => exact fun _ _ _ _ => apart_of_none rfl _

/-- A commit leaves the rows that other transactions hold. -/
theorem fits_commits {t : AuthTables} (hpairs : w.Others i (Apart l))
    (hfits : ∀ j m, w.flight j = some m → Fits settings w.committed m)
    (h : AuthCommits settings w i l t none) : w.Others i (Fits settings t) := by
  intro j m hj hm
  refine (hfits j m hm).keeps fun record hrecord hmem => ?_
  cases h with
  | loggedIn user now issue htime hsession htoken => exact List.mem_append_left _ hmem
  | refreshed presented own now user found issue htime hsession htoken =>
    exact mem_rotateToken (List.mem_append_left _ hmem) (hpairs j m hj hm own record rfl hrecord).symm
  | loggedOut presented own now found siblings hfree =>
    refine mem_revokeTokens hmem ?_
    rw [List.mem_cons, not_or]
    exact ⟨(hpairs j m hj hm own record rfl hrecord).symm, fun hin =>
      hfree _ hin j m hj hm record hrecord rfl⟩
  | _ => exact hmem

theorem sound_commits {t : AuthTables} (hsound : TokensSound settings w.committed)
    (hfits : Fits settings w.committed l) (h : AuthCommits settings w i l t none) :
    TokensSound settings t := by
  cases h with
  | waits time h => exact hsound.keeps rfl rfl (.inl rfl)
  | loggedIn user now issue htime hsession htoken =>
    exact hsound.logsIn hsession htoken rfl rfl rfl rfl
  | refreshed presented record now user found issue htime hsession htoken =>
    exact hsound.rotates hfits htoken rfl rfl rfl
  | loggedOut presented record now found siblings hfree =>
    exact (hsound.revokes hfits rfl rfl rfl rfl).1
  | critical request principal session =>
    refine hsound.keeps rfl rfl (.inr ⟨_, rfl, ?_⟩)
    rcases requireCriticalPermission_cases request principal session w.committed.clock with
      ⟨error, heq⟩ | ⟨heq, -⟩
    · rw [heq]
      rfl
    · rw [heq]
      rfl
  | _ => exact hsound.keeps rfl rfl (.inr ⟨_, rfl, rfl⟩)

/-- A transaction of the API commits once and ends. -/
theorem ends_commits {t : AuthTables} (h : AuthCommits settings w i l t (some l')) : False := by
  cases h

end Steps

abbrev SessionsHeld (settings : AuthSettings) : AuthWorld → Prop :=
  Protocol.Held (TokensSound settings) (Fits settings) Apart

theorem fits_begins {settings : AuthSettings} {t : AuthTables} {l : AuthTransaction}
    (h : l.Begins) : Fits settings t l ∧ ∀ m, Apart l m := by
  cases h with
  | _ => exact ⟨trivial, apart_of_none rfl⟩

theorem sessionsHeld_step {settings : AuthSettings} {w w' : AuthWorld} (h : SessionsHeld settings w)
    (hstep : (sessionProtocol settings).Step w w') : SessionsHeld settings w' := by
  refine Protocol.held_step apart_symm (fun t l _ hl => fits_begins hl) ?_ ?_ h hstep
  · intro w i l l' hw running hmove
    have hmoves : AuthMoves settings w i l l' := hmove
    exact ⟨fits_moves hw.shared (hw.each i l running) hmoves,
      apart_moves (hw.pairs i l running) hmoves⟩
  · intro w i l t l' hw running hcommit
    have hcommits : AuthCommits settings w i l t l' := hcommit
    cases l' with
    | none =>
      have hsound := sound_commits hw.shared (hw.each i l running) hcommits
      refine ⟨hsound, fits_commits (hw.pairs i l running) hw.each hcommits, fun m hm => ?_⟩
      cases hm
    | some l' => exact (ends_commits hcommits).elim

/-- No session yet, and nobody has called. -/
structure AuthTables.Fresh (tables : AuthTables) : Prop where
  sessions : tables.sessions = []
  tokens : tables.tokens = []
  answers : tables.answers = []

theorem tokensSound_fresh (settings : AuthSettings) {tables : AuthTables} (h : tables.Fresh) :
    TokensSound settings tables := by
  refine ⟨?_, ?_, ?_, ?_, ?_, ?_, ?_, ?_⟩
  · simp [h.tokens]
  · simp [h.sessions]
  · simp [h.tokens]
  · intro id
    rw [h.tokens]
    exact rotationChain_nil
  · simp [h.sessions]
  · simp [h.tokens]
  · simp [h.answers]
  · simp [h.answers]

theorem sessionsHeld {settings : AuthSettings} {start : AuthTables} {w : AuthWorld}
    (hstart : start.Fresh) (h : (sessionProtocol settings).Reachable (World.quiet start) w) :
    SessionsHeld settings w :=
  Protocol.invariant (fun _ _ hw hstep => sessionsHeld_step hw hstep)
    (Protocol.held_quiet (tokensSound_fresh settings hstart)) h

/-! ## A call alone

In a run that is restricted the call has to be one of those that may commit.
-/

section Alone
open Protocol
variable {settings : AuthSettings} {C : AuthWorld → ℕ → AuthTransaction → Prop} {start t : AuthTables}

theorem waits_alone
    (h : ((sessionProtocol settings).restrict C).Reachable (World.quiet start) (World.quiet t))
    {time : Instant} (htime : t.clock ≤ time) (hallowed : C (alone t (.waits time)) 0 (.waits time)) :
    ((sessionProtocol settings).restrict C).Reachable (World.quiet start)
      (World.quiet { t with clock := time }) := by
  refine h.trans (alone_commits (alone_begins t (.waits time)) ?_)
  exact ⟨.waits time htime, hallowed⟩

/-- With the right password an unlocked user is logged in. -/
theorem login_alone
    (h : ((sessionProtocol settings).restrict C).Reachable (World.quiet start) (World.quiet t))
    (body : LoginRequest) {user : User} (issue : Issue)
    (hfind : t.users.find? (fun row => decide (row.username = body.username)) = some user)
    (hopen : user.isLocked t.clock = false) (hpassword : loginFails settings body (some user) = false)
    (htimes : issue.From t.clock) (htime : issue.finished ≤ t.clock)
    (hsession : findSession t.sessions issue.sessionId = none)
    (htoken : findToken t.tokens (settings.tokenHash issue.rawRefresh) = none)
    (hallowed : C (alone t (.loginResponded user t.clock issue)) 0 (.loginResponded user t.clock issue)) :
    ((sessionProtocol settings).restrict C).Reachable (World.quiet start) (World.quiet
      (({ t with
          users := flushUser user user.passes t.users
          sessions := issue.sessions settings user none t.sessions
          tokens := t.tokens ++ [issue.record settings user] } : AuthTables).answer
        (.loggedIn user.id issue.authenticated (issue.response settings user)))) := by
  have hbegins := alone_begins (p := (sessionProtocol settings).restrict C) t (.login body)
  have hreads := alone_moves hbegins (.loginReads body)
  rw [alone_committed, hfind] at hreads
  have hpasses := alone_moves hreads (.loginPassed body user hopen hpassword)
  have hresponds := alone_moves hpasses (.loginResponds user t.clock issue htimes hsession)
  exact h.trans (alone_commits hresponds ⟨.loggedIn user t.clock issue htime hsession htoken, hallowed⟩)

/-- A wrong password is counted. -/
theorem denied_alone
    (h : ((sessionProtocol settings).restrict C).Reachable (World.quiet start) (World.quiet t))
    (body : LoginRequest) {user : User}
    (hfind : t.users.find? (fun row => decide (row.username = body.username)) = some user)
    (hopen : user.isLocked t.clock = false) (hpassword : loginFails settings body (some user) = true)
    (hallowed : C (alone t (.loginDenied (some user) t.clock)) 0 (.loginDenied (some user) t.clock)) :
    ((sessionProtocol settings).restrict C).Reachable (World.quiet start) (World.quiet
      (({ t with users := flushUser user (user.fails t.clock) t.users } : AuthTables).answer
        (.denied (some user.id) t.clock (user.locks t.clock)))) := by
  have hbegins := alone_begins (p := (sessionProtocol settings).restrict C) t (.login body)
  have hreads := alone_moves hbegins (.loginReads body)
  rw [alone_committed, hfind] at hreads
  have hfails := alone_moves hreads (.loginDenied body (some user)
    (fun u hu => by cases hu; exact hopen) hpassword)
  exact h.trans (alone_commits hfails ⟨.denied user t.clock, hallowed⟩)

/-- A valid token is rotated. -/
theorem refresh_alone
    (h : ((sessionProtocol settings).restrict C).Reachable (World.quiet start) (World.quiet t))
    (presented : String) {record : RefreshToken} {user : User} (issue : Issue)
    (hfind : findToken t.tokens (settings.tokenHash presented) = some record)
    (hrevoked : record.revokedAt = none) (hexpires : t.clock < record.expiresAt)
    (huser : findUser t.users record.userId = some user) (henabled : user.enabled = true)
    (htimes : issue.From t.clock) (htime : issue.finished ≤ t.clock)
    (hissue : issue.sessionId = record.sessionId) {found : AuthSession}
    (hfound : findSession t.sessions record.sessionId = some found)
    (htoken : findToken t.tokens (settings.tokenHash issue.rawRefresh) = none)
    (hallowed : C (alone t (.refreshResponded presented record t.clock user (some found) issue)) 0
      (.refreshResponded presented record t.clock user (some found) issue)) :
    ((sessionProtocol settings).restrict C).Reachable (World.quiet start) (World.quiet
      (({ t with
          sessions := issue.sessions settings user (some found) t.sessions
          tokens := rotateToken record t.clock (settings.tokenHash issue.rawRefresh)
            (t.tokens ++ [issue.record settings user]) } : AuthTables).answer
        (.refreshed presented issue.authenticated (issue.response settings user)))) := by
  have hbegins := alone_begins (p := (sessionProtocol settings).restrict C) t (.refresh presented)
  have hlocks := alone_moves hbegins (.refreshLocks presented (others_alone _ _ _))
  rw [alone_committed, hfind] at hlocks
  have hchecks := alone_moves hlocks
    (.refreshChecks presented record user hrevoked hexpires huser henabled)
  have hresponds := alone_moves hchecks
    (.refreshResponds presented record t.clock user issue htimes hissue)
  rw [alone_committed, hfound] at hresponds
  refine h.trans (alone_commits hresponds ⟨?_, hallowed⟩)
  exact .refreshed presented record t.clock user (some found) issue htime nofun htoken

/-- An unrevoked token is revoked together with its siblings and its session. -/
theorem logout_alone
    (h : ((sessionProtocol settings).restrict C).Reachable (World.quiet start) (World.quiet t))
    (presented : String) {record : RefreshToken}
    (hfind : findToken t.tokens (settings.tokenHash presented) = some record)
    (hrevoked : record.revokedAt = none) {found : Option AuthSession}
    (hfound : findSession t.sessions record.sessionId = found) {siblings : List String}
    (hsiblings : (t.tokens.filter fun row => decide (row.sessionId = record.sessionId) &&
      row.revokedAt.isNone).map (·.tokenHash) = siblings)
    (hallowed : C (alone t (.logoutListed presented record t.clock found siblings)) 0
      (.logoutListed presented record t.clock found siblings)) :
    ((sessionProtocol settings).restrict C).Reachable (World.quiet start) (World.quiet
      (({ t with
          sessions := revokeSession found t.clock t.sessions
          tokens := revokeTokens (record.tokenHash :: siblings) t.clock t.tokens } : AuthTables).answer
        (.loggedOut presented (some record.sessionId)))) := by
  have hbegins := alone_begins (p := (sessionProtocol settings).restrict C) t (.logout presented)
  have hlocks := alone_moves hbegins (.logoutLocks presented (others_alone _ _ _))
  rw [alone_committed, hfind] at hlocks
  have hreads := alone_moves hlocks (.logoutReads presented record hrevoked)
  rw [alone_committed, hfound] at hreads
  have hlists := alone_moves hreads (.logoutLists presented record t.clock found)
  rw [alone_committed, hsiblings] at hlists
  refine h.trans (alone_commits hlists ⟨?_, hallowed⟩)
  exact .loggedOut presented record t.clock found siblings fun _ _ => others_alone _ _ _

/-- A revoked token is logged out without a trace. -/
theorem logout_revoked_alone
    (h : ((sessionProtocol settings).restrict C).Reachable (World.quiet start) (World.quiet t))
    (presented : String) {record : RefreshToken}
    (hfind : findToken t.tokens (settings.tokenHash presented) = some record)
    (hrevoked : record.revokedAt.isSome = true)
    (hallowed : C (alone t (.logoutLocked presented (some record))) 0
      (.logoutLocked presented (some record))) :
    ((sessionProtocol settings).restrict C).Reachable (World.quiet start)
      (World.quiet (t.answer (.loggedOut presented (some record.sessionId)))) := by
  have hbegins := alone_begins (p := (sessionProtocol settings).restrict C) t (.logout presented)
  have hlocks := alone_moves hbegins (.logoutLocks presented (others_alone _ _ _))
  rw [alone_committed, hfind] at hlocks
  exact h.trans (alone_commits hlocks ⟨.loggedOutRevoked presented record hrevoked, hallowed⟩)

/-- A request with a valid access token is decided on the session that is there. -/
theorem critical_alone
    (h : ((sessionProtocol settings).restrict C).Reachable (World.quiet start) (World.quiet t))
    (request : CriticalRequest) {principal : Principal} {session : AuthSession}
    (hprincipal : currentPrincipal settings t request.credentials t.clock = .ok (principal, session))
    (hallowed : C (alone t (.criticalRead request principal session)) 0
      (.criticalRead request principal session)) :
    ((sessionProtocol settings).restrict C).Reachable (World.quiet start) (World.quiet
      (t.answer (requireCriticalPermission request principal session t.clock))) := by
  have hbegins := alone_begins (p := (sessionProtocol settings).restrict C) t (.critical request)
  have hreads := alone_moves hbegins (.criticalReads request principal session hprincipal)
  exact h.trans (alone_commits hreads ⟨.critical request principal session, hallowed⟩)

end Alone

end TraceQ.Security
