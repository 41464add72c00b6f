import Label309.Client.ChunkRetry

/-!
# The recovery of a completion

A completion that is answered with an incomplete upload is followed by a reading of the session and
by the chunks that it misses. The last completion is followed by them too, with no completion left
that would use what they sent.
-/
namespace Label309
open Traced

section Recovery
variable {σ : Type} (json : JsonPrimitives) (bodies : UploadBodies) (sha256 : List UInt8 → Digest)
  (host : UploadHost σ) (config : NamespaceConfig σ) (input : ResumableUploadInput σ)

/-- A request that asks to complete the session. -/
def completes (sid : String) (e : Exchange) : Bool :=
  e.method = .post && e.url = completeUrl config sid

/-- A request that reads the session. -/
def rereads (sid : String) (e : Exchange) : Bool := e.method = .get && e.url = sessionUrl config sid

/-- A request that sends a chunk. -/
def sendsChunk (e : Exchange) : Bool := e.method = .put

/-- The incomplete upload that an answer reports. -/
def incompleteUpload (e : Exchange) : Option ResumableUploadError :=
  match e.answer with
  | .error _ => none
  | .ok response =>
      match throwIfNotOk json response with
      | .ok _ => none
      | .error err => if isIncompleteUploadError (.http err) then some (.http err) else none

/-- A completion that is answered with an incomplete upload. -/
def refusedAsIncomplete (sid : String) (e : Exchange) : Bool :=
  completes config sid e && (incompleteUpload json e).isSome

/-- The run ends in a failure of the program. -/
def EndsIn {α β : Type} (m : Upload σ β) (r : Except ResumableUploadError α)
    (w' : World σ Exchange) : Prop :=
  ∃ w err, exec m w = some (.error err, w') ∧ r = .error err

/-- The run ends in a recovery that fails: the session is not read, or a chunk is not sent. -/
def RecoveryFails (session : SessionGrid) (r : Except ResumableUploadError ResumableUploadResult)
    (w' : World σ Exchange) : Prop :=
  EndsIn (getStatus json bodies config session.sessionId) r w' ∨
    ∃ missing bytesAcked, EndsIn (sendMissingChunks json bodies sha256 host config input session
      missing bytesAcked) r w'

/-- **What is documented of the recovery**: the completions and the readings are bounded, and unless
the recovery fails, chunks are sent again for a completion that follows, and an upload that stays
incomplete is reported as such. -/
structure RecoveryBounded (session : SessionGrid)
    (r : Except ResumableUploadError ResumableUploadResult) (w' : World σ Exchange)
    (log : List Exchange) : Prop where
  completions : log.countP (completes config session.sessionId) ≤ completeRetryAttempts + 1
  readings : log.countP (rereads config session.sessionId) ≤ completeRetryAttempts
  used : ¬ RecoveryFails json bodies sha256 host config input session r w' →
    ∀ rest, rest <:+ log → (∃ e ∈ rest, sendsChunk e = true) →
      ∃ e ∈ rest, completes config session.sessionId e = true
  reported : ¬ RecoveryFails json bodies sha256 host config input session r w' →
    (∀ e ∈ log, completes config session.sessionId e = true → (incompleteUpload json e).isSome = true) →
      ∃ e ∈ log, ∃ err, completes config session.sessionId e = true ∧
        incompleteUpload json e = some err ∧ r = .error err

end Recovery

/-! ## One round -/

section Rounds
variable {σ : Type} {json : JsonPrimitives} {bodies : UploadBodies} {sha256 : List UInt8 → Digest}
  {host : UploadHost σ} {config : NamespaceConfig σ} {input : ResumableUploadInput σ}

theorem attemptUrl_ne_sessionUrl (attemptId sid : String) :
    attemptUrl config attemptId ≠ sessionUrl config sid := by
  intro heq
  have hlist := congrArg String.toList heq
  simp only [attemptUrl, sessionUrl, String.toList_append, List.append_assoc,
    List.append_cancel_left_eq] at hlist
  have htake := congrArg (List.take 14) hlist
  rw [List.take_append_of_le_length (by decide), List.take_append_of_le_length (by decide)] at htake
  exact absurd htake (by decide)

/-- A request that the polling of an attempt sends. -/
def PollsAttempt (config : NamespaceConfig σ) (e : Exchange) : Prop :=
  e.method = .get ∧ ∃ attemptId, e.url = attemptUrl config attemptId

theorem completes_of_pollsAttempt {sid : String} {e : Exchange} (h : PollsAttempt config e) :
    completes config sid e = false := by
  simp [completes, h.1]

theorem rereads_of_pollsAttempt {sid : String} {e : Exchange} (h : PollsAttempt config e) :
    rereads config sid e = false := by
  obtain ⟨attemptId, hurl⟩ := h.2
  simp [rereads, hurl, attemptUrl_ne_sessionUrl]

theorem sendsChunk_of_pollsAttempt {e : Exchange} (h : PollsAttempt config e) :
    sendsChunk e = false := by
  simp [sendsChunk, h.1]

theorem pollsAttempt_completeBodyToResult (fuel : ℕ) (sid : String) (body : List UInt8) :
    Within (GrowsBy (PollsAttempt config))
      (completeBodyToResult json bodies host config input fuel sid body) :=
  (hostKeeps_growsBy _).completeBodyToResult (callerKeeps_growsBy _)
    (fun attemptId _ _ => growsBy_sendRaw fun _ => ⟨rfl, attemptId, rfl⟩) fuel sid body

theorem sendsChunk_sendMissingChunks (session : SessionGrid) (missing : List UInt32)
    (bytesAcked : UInt64) :
    Within (GrowsBy (sendsChunk · = true))
      (sendMissingChunks json bodies sha256 host config input session missing bytesAcked) :=
  (hostKeeps_growsBy _).sendMissingChunks (callerKeeps_growsBy _)
    (fun _ _ _ => growsBy_sendRaw fun _ => rfl) (growsBy_reportProgress _) missing bytesAcked

/-- One request is sent, and the answer or the error of the transport comes back. -/
theorem exec_viaHttp_sendRaw {url : String} {method : HttpMethod}
    {headers : List (String × String)} {body : RequestBody} {w w' : World σ Exchange}
    {r : Except ResumableUploadError ClientResponse}
    (hrun : exec (viaHttp (sendRaw config url method headers body)) w = some (r, w')) :
    ∃ answer, w'.log = w.log ++ [⟨url, method, headers, body, answer⟩] ∧
      r = answer.mapError fun e => .http (.outbound e) := by
  obtain ⟨first, hfirst, hr⟩ := exec_mapError_eq_some hrun
  obtain ⟨answer, hanswer, hlog⟩ := exec_sendRaw hfirst
  refine ⟨answer, hlog, ?_⟩
  rw [hr, hanswer]
  cases answer <;> rfl

/-- The session is read with one request. -/
theorem log_getStatus {sid : String} {w w' : World σ Exchange}
    {r : Except ResumableUploadError UploadSessionStatus}
    (hrun : exec (getStatus json bodies config sid) w = some (r, w')) :
    ∃ e, w'.log = w.log ++ [e] ∧ rereads config sid e = true := by
  have hrereads : ∀ headers body answer,
      rereads config sid ⟨sessionUrl config sid, .get, headers, body, answer⟩ = true := by
    intro headers body answer
    simp [rereads]
  have hsend : ∀ r' w1, exec (viaHttp (send config json (sessionUrl config sid) .get
      (jsonHeaders config.apiKey none) .none)) w = some (r', w1) →
      ∃ e, w1.log = w.log ++ [e] ∧ rereads config sid e = true := by
    intro r' w1 h
    obtain ⟨first, hfirst, -⟩ := exec_mapError_eq_some h
    rcases exec_bind_cases hfirst with ⟨e, hraw, -⟩ | ⟨response, w2, hraw, hrest⟩
    · obtain ⟨answer, -, hlog⟩ := exec_sendRaw hraw
      exact ⟨_, hlog, hrereads _ _ _⟩
    · obtain ⟨answer, -, hlog⟩ := exec_sendRaw hraw
      have hkeep : w1.log = w2.log := by
        cases hok : throwIfNotOk json response <;>
          · rw [hok] at hrest
            cases hrest
            rfl
      exact ⟨_, hkeep.trans hlog, hrereads _ _ _⟩
  rcases exec_bind_cases hrun with ⟨e, hfirst, -⟩ | ⟨response, w1, hfirst, hparse⟩
  · exact hsend _ _ hfirst
  · obtain ⟨e, hlog, hkind⟩ := hsend _ _ hfirst
    rw [exec_parseBody] at hparse
    cases hparse
    exact ⟨e, hlog, hkind⟩

/-- What follows a completion that is refused as incomplete, with so many attempts left. -/
theorem exec_recovery {fuel n : ℕ} {session : SessionGrid} {headers : List (String × String)}
    {bytesAcked : UInt64} {w w' : World σ Exchange}
    {r : Except ResumableUploadError ResumableUploadResult}
    (hrun : exec (do
      let status ← getStatus json bodies config session.sessionId
      if status.missing.isEmpty then
        completeAttempts json bodies sha256 host config input fuel session
          (completeUrl config session.sessionId) headers n bytesAcked
      else do
        let bytesAcked ← sendMissingChunks json bodies sha256 host config input session
          status.missing bytesAcked
        completeAttempts json bodies sha256 host config input fuel session
          (completeUrl config session.sessionId) headers n bytesAcked) w = some (r, w')) :
    ∃ e chunks, rereads config session.sessionId e = true ∧
      (∀ x ∈ chunks, sendsChunk x = true) ∧
      (w'.log = w.log ++ e :: chunks ∧
          RecoveryFails json bodies sha256 host config input session r w' ∨
        ∃ w1 acked, w1.log = w.log ++ e :: chunks ∧
          exec (completeAttempts json bodies sha256 host config input fuel session
            (completeUrl config session.sessionId) headers n acked) w1 = some (r, w')) := by
  rcases exec_bind_cases hrun with ⟨err, hstatus, hr⟩ | ⟨status, w1, hstatus, hnext⟩
  · obtain ⟨e, hread, hkind⟩ := log_getStatus hstatus
    exact ⟨e, [], hkind, List.forall_mem_nil _, .inl ⟨hread, .inl ⟨w, err, hstatus, hr⟩⟩⟩
  obtain ⟨e, hread, hkind⟩ := log_getStatus hstatus
  by_cases hempty : status.missing.isEmpty = true
  · rw [if_pos hempty] at hnext
    exact ⟨e, [], hkind, List.forall_mem_nil _, .inr ⟨w1, bytesAcked, hread, hnext⟩⟩
  rw [if_neg hempty] at hnext
  rcases exec_bind_cases hnext with ⟨err, hsend, hr⟩ | ⟨acked, w2, hsend, hagain⟩
  · obtain ⟨chunks, hsent, hchunks⟩ := sendsChunk_sendMissingChunks _ _ _ _ _ _ hsend
    refine ⟨e, chunks, hkind, hchunks, .inl ⟨?_, .inr ⟨_, _, w1, err, hsend, hr⟩⟩⟩
    rw [hsent, hread, List.append_assoc]
    rfl
  · obtain ⟨chunks, hsent, hchunks⟩ := sendsChunk_sendMissingChunks _ _ _ _ _ _ hsend
    refine ⟨e, chunks, hkind, hchunks, .inr ⟨w2, acked, ?_, hagain⟩⟩
    rw [hsent, hread, List.append_assoc]
    rfl

/-- How a round came about: it ends the run, the recovery after it fails, or another follows. -/
theorem exec_completeAttempts (h : NeverCancels input) {fuel n : ℕ} {session : SessionGrid}
    {headers : List (String × String)} {bytesAcked : UInt64} {w w' : World σ Exchange}
    {r : Except ResumableUploadError ResumableUploadResult}
    (hrun : exec (completeAttempts json bodies sha256 host config input fuel session
      (completeUrl config session.sessionId) headers (n + 1) bytesAcked) w = some (r, w')) :
    ∃ e, completes config session.sessionId e = true ∧
      ((∃ polls, incompleteUpload json e = none ∧ w'.log = w.log ++ e :: polls ∧
          ∀ x ∈ polls, PollsAttempt config x) ∨
        ∃ e' chunks, (incompleteUpload json e).isSome = true ∧
          rereads config session.sessionId e' = true ∧ (∀ x ∈ chunks, sendsChunk x = true) ∧
          (w'.log = w.log ++ e :: e' :: chunks ∧
              RecoveryFails json bodies sha256 host config input session r w' ∨
            ∃ w1 acked, w1.log = w.log ++ e :: e' :: chunks ∧
              exec (completeAttempts json bodies sha256 host config input fuel session
                (completeUrl config session.sessionId) headers n acked) w1 = some (r, w'))) := by
  rw [completeAttempts, exec_bind, exec_isCancelled_of_never h] at hrun
  simp only [Option.bind_some, Bool.false_eq_true, if_false] at hrun
  have hcompletes : ∀ answer, completes config session.sessionId
      ⟨completeUrl config session.sessionId, .post, headers, .json "\x7b\x7d", answer⟩ = true := by
    intro answer
    simp [completes]
  rcases exec_bind_cases hrun with ⟨err, hpost, -⟩ | ⟨response, w1, hpost, hrest⟩
  · obtain ⟨answer, hlog, hanswer⟩ := exec_viaHttp_sendRaw hpost
    refine ⟨_, hcompletes answer, .inl ⟨[], ?_, hlog, List.forall_mem_nil _⟩⟩
    cases answer with
    | error e => rfl
    | ok response => cases hanswer
  obtain ⟨answer, hlog, hanswer⟩ := exec_viaHttp_sendRaw hpost
  cases answer with
  | error e => cases hanswer
  | ok response' =>
    cases hanswer
    refine ⟨_, hcompletes (.ok response), ?_⟩
    rcases @throwIfNotOk_cases json response with ⟨-, hok⟩ | ⟨-, hbad⟩
    · rw [hok] at hrest
      obtain ⟨polls, hgrown, hpolls⟩ := pollsAttempt_completeBodyToResult _ _ _ _ _ _ hrest
      refine .inl ⟨polls, by simp [incompleteUpload, hok], ?_, hpolls⟩
      rw [hgrown, hlog, List.append_assoc]
      rfl
    rw [hbad] at hrest
    dsimp only at hrest
    by_cases hother : isIncompleteUploadError (.http (.http (parseHttpError json response))) = false
    · rw [if_pos hother] at hrest
      cases hrest
      exact .inl ⟨[], by simp [incompleteUpload, hbad, hother], hlog, List.forall_mem_nil _⟩
    · rw [if_neg hother] at hrest
      obtain ⟨e', chunks, hkind, hchunks, hend⟩ := exec_recovery hrest
      rw [hlog, List.append_assoc] at hend
      exact .inr ⟨e', chunks, by simp [incompleteUpload, hbad, hother], hkind, hchunks, hend⟩

end Rounds

/-! ## All rounds -/

section Runs
variable {σ : Type} {json : JsonPrimitives} {bodies : UploadBodies} {sha256 : List UInt8 → Digest}
  {host : UploadHost σ} {config : NamespaceConfig σ} {input : ResumableUploadInput σ}

/-- What the requests of a run of so many rounds have in common. While not every completion that is
left is refused, what is sent again is used. -/
structure RoundsOf (json : JsonPrimitives) (config : NamespaceConfig σ) (sid : String) (n : ℕ)
    (fails : Prop) (log : List Exchange) : Prop where
  completions : log.countP (completes config sid) ≤ n
  readings : log.countP (rereads config sid) = log.countP (refusedAsIncomplete json config sid)
  begins : n ≠ 0 → ∃ e ∈ log, completes config sid e = true
  used : log.countP (refusedAsIncomplete json config sid) < n →
    (∀ rest, rest <:+ log → (∃ e ∈ rest, sendsChunk e = true) →
      ∃ e ∈ rest, completes config sid e = true) ∨ fails
  reported : log.countP (refusedAsIncomplete json config sid) < n →
    (∀ e ∈ log, completes config sid e = true → (incompleteUpload json e).isSome = true) → fails

variable {sid : String} {n : ℕ} {fails : Prop}

theorem countP_eq_zero_of_all {α : Type} {p : α → Bool} {l : List α} (h : ∀ x ∈ l, p x = false) :
    l.countP p = 0 :=
  List.countP_eq_zero.mpr fun x hx => by simp [h x hx]

/-- A round that ends the run. -/
theorem RoundsOf.ended {e : Exchange} {polls : List Exchange}
    (hcompletes : completes config sid e = true) (hnone : incompleteUpload json e = none)
    (hpolls : ∀ x ∈ polls, PollsAttempt config x) :
    RoundsOf json config sid (n + 1) fails (e :: polls) := by
  have hmethod : e.method = .post := by
    simp only [completes, Bool.and_eq_true, decide_eq_true_eq] at hcompletes
    exact hcompletes.1
  have hcount : (e :: polls).countP (completes config sid) = 1 := by
    rw [List.countP_cons_of_pos hcompletes,
      countP_eq_zero_of_all fun x hx => completes_of_pollsAttempt (hpolls x hx)]
  refine ⟨by omega, ?_, fun _ => ⟨e, List.mem_cons_self, hcompletes⟩, ?_, ?_⟩
  · rw [countP_eq_zero_of_all, countP_eq_zero_of_all]
    · intro x hx
      rcases List.mem_cons.mp hx with rfl | hx
      · simp [refusedAsIncomplete, hnone]
      · simp [refusedAsIncomplete, completes_of_pollsAttempt (hpolls x hx)]
    · intro x hx
      rcases List.mem_cons.mp hx with rfl | hx
      · simp [rereads, hmethod]
      · exact rereads_of_pollsAttempt (hpolls x hx)
  · intro _
    refine .inl ?_
    intro rest hrest hsends
    obtain ⟨x, hx, hsends⟩ := hsends
    rcases List.mem_cons.mp (hrest.subset hx) with rfl | hx
    · simp [sendsChunk, hmethod] at hsends
    · rw [sendsChunk_of_pollsAttempt (hpolls x hx)] at hsends
      cases hsends
  · intro _ hall
    have hsome := hall e List.mem_cons_self hcompletes
    rw [hnone] at hsome
    cases hsome

/-- The counts of a round whose completion is refused. -/
theorem countP_round {e e' : Exchange} {chunks : List Exchange}
    (hcompletes : completes config sid e = true) (hsome : (incompleteUpload json e).isSome = true)
    (hrereads : rereads config sid e' = true) (hchunks : ∀ x ∈ chunks, sendsChunk x = true) :
    (e :: e' :: chunks).countP (completes config sid) = 1 ∧
      (e :: e' :: chunks).countP (rereads config sid) = 1 ∧
      (e :: e' :: chunks).countP (refusedAsIncomplete json config sid) = 1 := by
  have hpost : e.method = .post := by
    simp only [completes, Bool.and_eq_true, decide_eq_true_eq] at hcompletes
    exact hcompletes.1
  have hget : e'.method = .get := by
    simp only [rereads, Bool.and_eq_true, decide_eq_true_eq] at hrereads
    exact hrereads.1
  have hput : ∀ x ∈ chunks, x.method = .put := by
    intro x hx
    simpa [sendsChunk] using hchunks x hx
  refine ⟨?_, ?_, ?_⟩
  · rw [List.countP_cons_of_pos hcompletes, List.countP_cons_of_neg (by simp [completes, hget]),
      countP_eq_zero_of_all fun x hx => by simp [completes, hput x hx]]
  · rw [List.countP_cons_of_neg (by simp [rereads, hpost]), List.countP_cons_of_pos hrereads,
      countP_eq_zero_of_all fun x hx => by simp [rereads, hput x hx]]
  · rw [List.countP_cons_of_pos (by simp [refusedAsIncomplete, hcompletes, hsome]),
      List.countP_cons_of_neg (by simp [refusedAsIncomplete, completes, hget]),
      countP_eq_zero_of_all fun x hx => by simp [refusedAsIncomplete, completes, hput x hx]]

/-- A round after which the recovery fails. -/
theorem RoundsOf.failed {e e' : Exchange} {chunks : List Exchange}
    (hcompletes : completes config sid e = true) (hsome : (incompleteUpload json e).isSome = true)
    (hrereads : rereads config sid e' = true) (hchunks : ∀ x ∈ chunks, sendsChunk x = true)
    (hfails : fails) : RoundsOf json config sid (n + 1) fails (e :: e' :: chunks) := by
  obtain ⟨hcompletions, hreadings, hrefused⟩ := countP_round hcompletes hsome hrereads hchunks
  exact ⟨by omega, by omega, fun _ => ⟨e, List.mem_cons_self, hcompletes⟩, fun _ => .inr hfails,
    fun _ _ => hfails⟩

/-- A round that another follows. -/
theorem RoundsOf.again {e e' : Exchange} {chunks log : List Exchange}
    (hcompletes : completes config sid e = true) (hsome : (incompleteUpload json e).isSome = true)
    (hrereads : rereads config sid e' = true) (hchunks : ∀ x ∈ chunks, sendsChunk x = true)
    (h : RoundsOf json config sid n fails log) :
    RoundsOf json config sid (n + 1) fails ((e :: e' :: chunks) ++ log) := by
  obtain ⟨hcompletions, hreadings, hrefused⟩ := countP_round hcompletes hsome hrereads hchunks
  have hbound := h.completions
  have hequal := h.readings
  refine ⟨?_, ?_, fun _ => ⟨e, List.mem_cons_self, hcompletes⟩, ?_, ?_⟩
  · rw [List.countP_append]
    omega
  · rw [List.countP_append, List.countP_append]
    omega
  · intro hleft
    rw [List.countP_append] at hleft
    refine (h.used (by omega)).imp_left ?_
    intro hused rest hrest hsends
    obtain ⟨front, hsplit⟩ := hrest
    rcases List.append_eq_append_iff.mp hsplit with ⟨mid, -, hlog⟩ | ⟨mid, -, hlog⟩
    · -- The chunk that is sent may be of this round, and the next begins with a completion.
      obtain ⟨x, hx, hbegins⟩ := h.begins (by omega)
      exact ⟨x, by rw [hlog]; exact List.mem_append_right _ hx, hbegins⟩
    · exact hused rest ⟨mid, hlog.symm⟩ hsends
  · intro hleft hall
    rw [List.countP_append] at hleft
    exact h.reported (by omega) fun x hx => hall x (List.mem_append_right _ hx)

/-- A run of so many rounds. -/
theorem roundsOf_completeAttempts (h : NeverCancels input) {fuel : ℕ} {session : SessionGrid}
    {headers : List (String × String)} {r : Except ResumableUploadError ResumableUploadResult}
    {w' : World σ Exchange} (n : ℕ) (bytesAcked : UInt64) (w : World σ Exchange)
    (hrun : exec (completeAttempts json bodies sha256 host config input fuel session
      (completeUrl config session.sessionId) headers n bytesAcked) w = some (r, w')) :
    ∃ log, w'.log = w.log ++ log ∧ RoundsOf json config session.sessionId n
      (RecoveryFails json bodies sha256 host config input session r w') log := by
  induction n generalizing bytesAcked w with
  | zero =>
      cases hrun
      exact ⟨[], (List.append_nil _).symm, le_rfl, rfl, nofun, nofun, nofun⟩
  | succ n ih =>
      obtain ⟨e, hcompletes, hround⟩ := exec_completeAttempts h hrun
      rcases hround with ⟨polls, hnone, hlog, hpolls⟩ |
        ⟨e', chunks, hsome, hrereads, hchunks, hend⟩
      · exact ⟨_, hlog, .ended hcompletes hnone hpolls⟩
      rcases hend with ⟨hlog, hfails⟩ | ⟨w1, acked, hlog, hrest⟩
      · exact ⟨_, hlog, .failed hcompletes hsome hrereads hchunks hfails⟩
      · obtain ⟨log, hnew, hrounds⟩ := ih acked w1 hrest
        refine ⟨(e :: e' :: chunks) ++ log, ?_, hrounds.again hcompletes hsome hrereads hchunks⟩
        rw [hnew, hlog, List.append_assoc]

/-- **The recovery is bounded and used exactly when the gateway reports an incomplete upload to no
more completions than there are retries.** The last completion has no retry left. -/
theorem recoveryBounded_iff (h : NeverCancels input) {fuel : ℕ} {session : SessionGrid}
    {bytesAcked : UInt64} {w w' : World σ Exchange}
    {r : Except ResumableUploadError ResumableUploadResult}
    (hrun : exec (completeSession json bodies sha256 host config input fuel session bytesAcked) w =
      some (r, w')) :
    ∃ log, w'.log = w.log ++ log ∧
      (RecoveryBounded json bodies sha256 host config input session r w' log ↔
        log.countP (refusedAsIncomplete json config session.sessionId) ≤
          completeRetryAttempts) := by
  obtain ⟨log, hlog, hrounds⟩ := roundsOf_completeAttempts h _ _ _ hrun
  refine ⟨log, hlog, ?_⟩
  constructor
  · intro hbounded
    rw [← hrounds.readings]
    exact hbounded.readings
  · intro hrefused
    have hleft := Nat.lt_succ_of_le hrefused
    refine ⟨hrounds.completions, hrounds.readings.trans_le hrefused, ?_, ?_⟩
    · intro hrecovers
      exact (hrounds.used hleft).resolve_right hrecovers
    · intro hrecovers hall
      exact absurd (hrounds.reported hleft hall) hrecovers

end Runs

/-! ## Two gateways -/

def incompleteBody : List UInt8 := utf8Bytes "\x7b\"code\":\"incomplete-upload\"\x7d"

def missingBody : List UInt8 :=
  utf8Bytes ("\x7b\"session_id\":\"s\",\"state\":\"open\",\"sha256\":\"aa\",\"total_bytes\":1," ++
    "\"chunk_bytes\":1,\"chunk_count\":1,\"missing\":[0],\"expires_at\":\"2026-01-01\"\x7d")

def completedBody : List UInt8 := utf8Bytes "\x7b\"uri\":\"ar://x\"\x7d"

/-- A session of one chunk that is missing. -/
def oneChunkStatus : UploadSessionStatus where
  sessionId := "s"
  state := "open"
  sha256 := "aa"
  totalBytes := 1
  chunkBytes := 1
  chunkCount := 1
  missing := [0]
  attemptId := none
  uri := none

/-- A reader of the two bodies that a completion is answered with. -/
def completionJson : JsonPrimitives where
  fromSlice := fun body =>
    if body = incompleteBody then .ok (.object [("code", .string "incomplete-upload")])
    else if body = completedBody then .ok (.object [("uri", .string "ar://x")])
    else .error "expected value"
  toText := fun _ => "\x7b\x7d"

def completionBodies : UploadBodies :=
  { ackBodies with
    status := fun body => if body = missingBody then .ok oneChunkStatus else .error "missing field" }

def oneChunkGrid : SessionGrid where
  sessionId := "s"
  chunkBytes := 1
  chunkCount := 1
  totalBytes := 1
  declaredSha256Hex := "aa"
  missing := [0]

/-- The answers of a round that is refused: incomplete, the chunk is missing, acknowledged. -/
def refusedRound : List PutAnswer :=
  [.ok ⟨409, incompleteBody, none, none⟩, .ok ⟨200, missingBody, none, none⟩,
    .ok ⟨200, ackBody, none, none⟩]

def completeOneChunk : Upload (List PutAnswer) ResumableUploadResult :=
  completeSession completionJson completionBodies noDigest (noFiles _) scriptedConfig (plainInput _)
    1 oneChunkGrid 1

/-- The chunk is sent again and the second completion succeeds. -/
theorem recoveryBounded_resent : ∃ r w' log,
    exec completeOneChunk ⟨refusedRound ++ [.ok ⟨200, completedBody, none, none⟩], []⟩ =
      some (r, w') ∧ w'.log = [] ++ log ∧
    RecoveryBounded completionJson completionBodies noDigest (noFiles _) scriptedConfig
      (plainInput _) oneChunkGrid r w' log := by
  have hcounted : (exec completeOneChunk
      ⟨refusedRound ++ [.ok ⟨200, completedBody, none, none⟩], []⟩).any (fun out =>
        out.2.log.countP (refusedAsIncomplete completionJson scriptedConfig "s") ≤
          completeRetryAttempts) = true := by
    decide +kernel
  obtain ⟨⟨r, w'⟩, hrun, hcount⟩ := (Option.any_eq_true _ _).mp hcounted
  obtain ⟨log, hlog, hiff⟩ := recoveryBounded_iff (neverCancels_plainInput _) hrun
  have hnew : w'.log = log := hlog
  exact ⟨r, w', log, hrun, hlog, hiff.mpr (hnew ▸ of_decide_eq_true hcount)⟩

/-- The last completion is refused too: the session is read a third time, and the chunk is sent for
no completion. -/
theorem not_recoveryBounded_incomplete : ∃ r w',
    exec completeOneChunk ⟨refusedRound ++ refusedRound ++ refusedRound, []⟩ = some (r, w') ∧
    ¬ RecoveryBounded completionJson completionBodies noDigest (noFiles _) scriptedConfig
      (plainInput _) oneChunkGrid r w' w'.log := by
  have hcounted : (exec completeOneChunk
      ⟨refusedRound ++ refusedRound ++ refusedRound, []⟩).any (fun out =>
        ¬ out.2.log.countP (rereads scriptedConfig "s") ≤ completeRetryAttempts) = true := by
    decide +kernel
  obtain ⟨⟨r, w'⟩, hrun, hcount⟩ := (Option.any_eq_true _ _).mp hcounted
  exact ⟨r, w', hrun, fun hbounded => of_decide_eq_true hcount hbounded.readings⟩

end Label309
