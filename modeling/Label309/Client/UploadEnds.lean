import Label309.Client.ChunkRetry

/-!
# An upload ends

Whatever the gateway answers, an upload comes to an end. The attempts of a chunk and of a completion
are counted, and an attempt that stays open is polled up to a deadline: a sleep takes the time that
it was given, and so the polls are counted too.
-/
namespace Label309
open Traced

/-! ## Counting requests -/

section Counting
variable {σ : Type}

/-- At most so many requests were sent, chunks apart. -/
def SendsAtMost (gets posts deletes : ℕ) (w w' : World σ Exchange) : Prop :=
  ∃ new, w'.log = w.log ++ new ∧ new.countP (·.method = .get) ≤ gets ∧
    new.countP (·.method = .post) ≤ posts ∧ new.countP (·.method = .delete) ≤ deletes

variable {gets gets' posts posts' deletes deletes' : ℕ} {w w' w'' : World σ Exchange}

theorem SendsAtMost.of_log_eq (h : w'.log = w.log) : SendsAtMost gets posts deletes w w' :=
  ⟨[], by simp [h]⟩

theorem SendsAtMost.mono (h : SendsAtMost gets posts deletes w w') (hgets : gets ≤ gets')
    (hposts : posts ≤ posts') (hdeletes : deletes ≤ deletes') :
    SendsAtMost gets' posts' deletes' w w' := by
  obtain ⟨new, hlog, hget, hpost, hdelete⟩ := h
  exact ⟨new, hlog, hget.trans hgets, hpost.trans hposts, hdelete.trans hdeletes⟩

theorem SendsAtMost.trans (h : SendsAtMost gets posts deletes w w')
    (h' : SendsAtMost gets' posts' deletes' w' w'') :
    SendsAtMost (gets + gets') (posts + posts') (deletes + deletes') w w'' := by
  obtain ⟨new, hlog, hget, hpost, hdelete⟩ := h
  obtain ⟨new', hlog', hget', hpost', hdelete'⟩ := h'
  refine ⟨new ++ new', by rw [hlog', hlog, List.append_assoc], ?_⟩
  simp only [List.countP_append]
  exact ⟨Nat.add_le_add hget hget', Nat.add_le_add hpost hpost', Nat.add_le_add hdelete hdelete'⟩

/-- The program ends with at most so many requests. -/
def Costs {E α : Type} (gets posts deletes : ℕ) (m : Program (World σ Exchange) E α) : Prop :=
  ∀ w, Finishes (fun _ w' => SendsAtMost gets posts deletes w w') m w

section Rules
variable {E α β : Type} {m : Program (World σ Exchange) E α}

theorem Costs.mono (h : Costs gets posts deletes m) (hgets : gets ≤ gets')
    (hposts : posts ≤ posts') (hdeletes : deletes ≤ deletes') : Costs gets' posts' deletes' m :=
  fun w => (h w).mono fun _ _ hsent => hsent.mono hgets hposts hdeletes

theorem Costs.pure (a : α) : Costs gets posts deletes (pure a : Program (World σ Exchange) E α) :=
  fun _ => Finishes.pure (.of_log_eq rfl)

theorem Costs.throw (e : E) : Costs gets posts deletes (throw e : Program (World σ Exchange) E α) :=
  fun _ => Finishes.throw (.of_log_eq rfl)

theorem Costs.ofStep {f : World σ Exchange → Except E α × World σ Exchange}
    (h : ∀ w, (f w).2.log = w.log) : Costs gets posts deletes (ofStep f) :=
  fun w => Finishes.ofStep (.of_log_eq (h w))

theorem Costs.bind {g p d : ℕ} {f : α → Program (World σ Exchange) E β}
    (hm : Costs gets posts deletes m) (hf : ∀ a, Costs g p d (f a)) :
    Costs (gets + g) (posts + p) (deletes + d) (m >>= f) := by
  intro w
  refine Finishes.bind (hm w) ?_ ?_
  · intro e w1 hsent
    exact hsent.mono (by omega) (by omega) (by omega)
  · intro a w1 hsent
    exact (hf a w1).mono fun _ _ hrest => hsent.trans hrest

/-- What comes after a part that sends nothing. -/
theorem Costs.after {f : α → Program (World σ Exchange) E β} (hm : Costs 0 0 0 m)
    (hf : ∀ a, Costs gets posts deletes (f a)) : Costs gets posts deletes (m >>= f) :=
  (hm.bind hf).mono (by omega) (by omega) (by omega)

/-- What comes before a part that sends nothing. -/
theorem Costs.before {f : α → Program (World σ Exchange) E β} (hm : Costs gets posts deletes m)
    (hf : ∀ a, Costs 0 0 0 (f a)) : Costs gets posts deletes (m >>= f) :=
  hm.bind hf

theorem Costs.unless {c : Prop} [Decidable c] (e : E) (hm : Costs gets posts deletes m) :
    Costs gets posts deletes
      (if c then (do let _ ← (MonadExcept.throw e : Program (World σ Exchange) E Unit); m)
        else m) :=
  fun w => Finishes.unless (fun _ => .of_log_eq rfl) fun _ => hm w

theorem Costs.ite {c : Prop} [Decidable c] {n : Program (World σ Exchange) E α}
    (hm : Costs gets posts deletes m) (hn : Costs gets posts deletes n) :
    Costs gets posts deletes (if c then m else n) := by
  by_cases hc : c
  · rwa [if_pos hc]
  · rwa [if_neg hc]

theorem Costs.mapError {E' : Type} (h : Costs gets posts deletes m) (f : E → E') :
    Costs gets posts deletes (mapError f m) :=
  fun w => Finishes.mapError (h w)

end Rules

/-- What one request adds to the count of a method. -/
def requestCost (method counted : HttpMethod) : ℕ := if method = counted then 1 else 0

variable {json : JsonPrimitives} {config : NamespaceConfig σ} {url : String} {method : HttpMethod}
  {headers : List (String × String)} {body : RequestBody}

theorem costs_sendRaw : Costs (requestCost method .get) (requestCost method .post)
    (requestCost method .delete) (sendRaw config url method headers body) := by
  intro w
  refine Finishes.ofStep ⟨[_], rfl, ?_⟩
  simp [List.countP_cons, requestCost]

theorem costs_put : Costs 0 0 0 (sendRaw config url .put headers body) := costs_sendRaw

theorem costs_send : Costs (requestCost method .get) (requestCost method .post)
    (requestCost method .delete) (send config json url method headers body) := by
  apply Costs.before costs_sendRaw
  intro response
  cases throwIfNotOk json response with
  | ok response => exact Costs.pure response
  | error e => exact Costs.throw e

theorem costs_parseBody {α : Type} (decoder : List UInt8 → Except String α) (body : List UInt8) :
    Costs 0 0 0 (parseBody (σ := σ) decoder body) := by
  unfold parseBody
  cases decoder body with
  | ok value => exact Costs.pure value
  | error e => exact Costs.throw _

end Counting

/-! ## The steps that are counted -/

section Steps
variable {σ : Type} {json : JsonPrimitives} {bodies : UploadBodies} {sha256 : List UInt8 → Digest}
  {host : UploadHost σ} {config : NamespaceConfig σ} {input : ResumableUploadInput σ}

theorem costs_isCancelled : Costs 0 0 0 (isCancelled input) := by
  unfold isCancelled
  cases input.cancel with
  | none => exact Costs.pure false
  | some poll => exact Costs.ofStep fun _ => rfl

theorem costs_reportProgress (progress : UploadProgress) :
    Costs 0 0 0 (reportProgress input progress) := by
  unfold reportProgress
  cases input.onProgress with
  | none => exact Costs.pure ()
  | some cb => exact Costs.ofStep fun _ => rfl

theorem costs_onFile {α : Type} (path : String) (f : σ → Except String α × σ) :
    Costs 0 0 0 (onFile path f) :=
  Costs.ofStep fun _ => rfl

theorem costs_sourceLen (source : ResumableSource) : Costs 0 0 0 (sourceLen host source) := by
  cases source with
  | path p => exact costs_onFile p _
  | bytes b => exact Costs.pure _

theorem costs_readSource (source : ResumableSource) : Costs 0 0 0 (readSource host source) := by
  cases source with
  | path p => exact costs_onFile p _
  | bytes b => exact Costs.pure _

theorem costs_streamSha256 (source : ResumableSource) :
    Costs 0 0 0 (streamSha256 sha256 host source) := by
  cases source with
  | path p => exact Costs.after (costs_onFile p _) fun _ => Costs.pure _
  | bytes b => exact Costs.pure _

theorem costs_readChunk (source : ResumableSource) (index : UInt32)
    (chunkBytes totalBytes : UInt64) :
    Costs 0 0 0 (readChunk host source index chunkBytes totalBytes) := by
  apply Costs.ite (Costs.pure [])
  cases source with
  | bytes b => exact Costs.ite (Costs.throw _) (Costs.pure _)
  | path p =>
      apply Costs.after (costs_onFile p _)
      intro sourceLen
      apply Costs.unless
      apply Costs.after (costs_onFile p _)
      intro buf
      exact Costs.unless _ (Costs.pure buf)

theorem costs_putChunkAttempts (url : String) (index : UInt32) (chunk : List UInt8) (attempts : ℕ)
    (lastErr : Option ResumableUploadError) :
    Costs 0 0 0 (putChunkAttempts json bodies sha256 config input url index chunk attempts
      lastErr) := by
  induction attempts generalizing lastErr with
  | zero => exact Costs.throw _
  | succ attempts ih =>
      apply Costs.after costs_isCancelled
      intro cancelled
      apply Costs.unless
      apply Costs.after (costs_put.mapError _)
      intro response
      cases throwIfNotOk json response with
      | ok response => exact costs_parseBody _ _
      | error e => exact Costs.unless _ (ih _)

theorem costs_sendMissingChunks (session : SessionGrid) (missing : List UInt32)
    (bytesAcked : UInt64) :
    Costs 0 0 0 (sendMissingChunks json bodies sha256 host config input session missing
      bytesAcked) := by
  induction missing generalizing bytesAcked with
  | nil => exact Costs.pure bytesAcked
  | cons index missing ih =>
      apply Costs.after costs_isCancelled
      intro cancelled
      apply Costs.unless
      apply Costs.after (costs_readChunk _ _ _ _)
      intro chunk
      apply Costs.after (costs_putChunkAttempts _ _ _ _ _)
      intro ack
      exact Costs.after (costs_reportProgress _) fun _ => ih _

theorem costs_getStatus (sid : String) : Costs 1 0 0 (getStatus json bodies config sid) :=
  Costs.before (costs_send.mapError _) fun _ => costs_parseBody _ _

theorem costs_createSession (wholeSha256 : Digest) (totalBytes chunkRequest : UInt64) :
    Costs 0 1 0 (createSession json bodies config input wholeSha256 totalBytes chunkRequest) := by
  apply Costs.before (costs_sendRaw.mapError _)
  intro response
  apply Costs.unless
  cases throwIfNotOk json response with
  | error e => exact Costs.throw _
  | ok response =>
      apply Costs.ite
      · exact Costs.after (costs_parseBody _ _) fun _ => Costs.pure _
      · exact Costs.after (costs_parseBody _ _) fun _ => Costs.pure _

theorem costs_abandonSession (sid : String) : Costs 0 0 1 (abandonSession json config sid) := by
  apply Costs.before costs_sendRaw
  intro response
  apply Costs.ite (Costs.pure ())
  cases throwIfNotOk json response with
  | ok response => exact Costs.pure ()
  | error e => exact Costs.throw e

theorem exec_orAbandon_cancelled {α : Type} {sid : String} {m : Upload σ α}
    {w w1 : World σ Exchange} (hrun : exec m w = some (.error .cancelled, w1)) :
    exec (orAbandon json config sid m) w =
      (exec (abandonSession json config sid) w1).map fun out =>
        match out.1 with
        | .ok () => (.error .cancelled, out.2)
        | .error source => (.error (.abandonFailed sid source), out.2) := by
  rw [orAbandon, exec_onOutcome, hrun]
  rfl

/-- An abandonment takes one more request, and nothing follows it. -/
theorem finishes_orAbandon {α : Type} {sid : String} {m : Upload σ α} {w : World σ Exchange}
    {Q : Except ResumableUploadError α → World σ Exchange → Prop} (hm : Finishes Q m w) :
    Finishes (fun r w' => Q r w' ∨
      (∃ e, r = .error e) ∧ ∃ w1, Q (.error .cancelled) w1 ∧ SendsAtMost 0 0 1 w1 w')
      (orAbandon json config sid m) w := by
  obtain ⟨first, w1, hrun, hQ⟩ := hm
  by_cases hcancel : first = .error .cancelled
  · rw [hcancel] at hrun hQ
    obtain ⟨gone, w', hgone, hsent⟩ := @costs_abandonSession σ json config sid w1
    have hexec := @exec_orAbandon_cancelled σ json config α sid m w w1 hrun
    rw [hgone, Option.map_some] at hexec
    cases gone with
    | ok u => exact ⟨_, _, hexec, .inr ⟨⟨_, rfl⟩, w1, hQ, hsent⟩⟩
    | error source => exact ⟨_, _, hexec, .inr ⟨⟨_, rfl⟩, w1, hQ, hsent⟩⟩
  · exact ⟨first, w1, exec_orAbandon_of_ne hrun hcancel, .inl hQ⟩

theorem costs_singleShot : Costs 0 1 0 (singleShot json bodies host config input) := by
  apply Costs.after costs_isCancelled
  intro cancelled
  apply Costs.unless
  apply Costs.after (costs_readSource _)
  intro bytes
  apply Costs.before (costs_send.mapError _)
  intro response
  apply Costs.after
  · unfold decodeBody viaHttp
    cases bodies.uploads response.body with
    | ok value => exact (Costs.pure value).mapError _
    | error e => exact (Costs.throw _).mapError _
  intro parsed
  rcases parsed with ⟨uploads⟩
  cases uploads with
  | nil => exact Costs.throw _
  | cons entry rest =>
      cases entry with
      | success idx ok uri sha256 bytes =>
          exact Costs.after (costs_reportProgress _) fun _ => Costs.pure _
      | failure idx ok error => exact Costs.throw _

end Steps

/-! ## The steps that wait -/

/-- The time of the state. No step of the polling turns it back, the host reads it, and a sleep takes
its time. -/
structure KeepsTime {σ : Type} (host : UploadHost σ) (config : NamespaceConfig σ)
    (input : ResumableUploadInput σ) (clock : σ → ℕ) : Prop where
  now : ∀ s, clock s ≤ (host.now s).1 ∧ (host.now s).1 ≤ clock (host.now s).2
  sleep : ∀ t s, clock s + t ≤ clock (host.sleep t s)
  answers : ∀ url method headers body s,
    clock s ≤ clock (config.transport url method headers body s).2
  poll : ∀ poll, input.cancel = some poll → ∀ s, clock s ≤ clock (poll s).2

/-- Slices of a sleep between two polls. -/
def slicesOfInterval : ℕ := attemptPollInterval / cancelPollSlice

/-- Polls up to the deadline, the first apart. -/
def pollsOfTimeout : ℕ := attemptPollTimeout / attemptPollInterval

section Waiting
variable {σ : Type} {json : JsonPrimitives} {bodies : UploadBodies} {sha256 : List UInt8 → Digest}
  {host : UploadHost σ} {config : NamespaceConfig σ} {input : ResumableUploadInput σ}
  {clock : σ → ℕ} (h : KeepsTime host config input clock)
include h

theorem KeepsTime.isCancelled (w : World σ Exchange) :
    ∃ cancelled w', exec (isCancelled input) w = some (.ok cancelled, w') ∧ w'.log = w.log ∧
      clock w.host ≤ clock w'.host := by
  unfold Label309.isCancelled
  cases hcancel : input.cancel with
  | none => exact ⟨false, w, rfl, rfl, le_rfl⟩
  | some poll => exact ⟨_, _, rfl, rfl, h.poll poll hcancel w.host⟩

/-- A sleep in slices ends, and when it was not cancelled its time has passed. -/
theorem KeepsTime.sleepUntil {deadline k fuel : ℕ} (hfuel : k < fuel) {w : World σ Exchange}
    (hdeadline : deadline ≤ clock w.host + k * cancelPollSlice) :
    Finishes (fun r w' => w'.log = w.log ∧
      ∃ slept, r = .ok slept ∧ (slept = true → deadline ≤ clock w'.host))
      (sleepUntil host input deadline fuel) w := by
  induction fuel generalizing k w with
  | zero => omega
  | succ fuel ih =>
      obtain ⟨cancelled, w1, hrun, hlog, hclock⟩ := h.isCancelled w
      refine Finishes.after hrun ?_
      cases cancelled with
      | true => exact Finishes.pure ⟨hlog, false, rfl, nofun⟩
      | false =>
          rw [if_neg Bool.false_ne_true]
          obtain ⟨hbefore, hafter⟩ := h.now w1.host
          refine Finishes.after (b := (host.now w1.host).1)
            (v := { w1 with host := (host.now w1.host).2 }) rfl ?_
          by_cases hdue : deadline ≤ (host.now w1.host).1
          · rw [if_pos hdue]
            exact Finishes.pure ⟨hlog, true, rfl, fun _ => hdue.trans hafter⟩
          · rw [if_neg hdue]
            obtain ⟨k, rfl⟩ : ∃ n, k = n + 1 := ⟨k - 1, by cases k <;> omega⟩
            let slice := min cancelPollSlice (deadline - (host.now w1.host).1)
            have hslept := h.sleep slice (host.now w1.host).2
            refine Finishes.after (b := ())
              (v := { w1 with host := host.sleep slice (host.now w1.host).2 }) rfl ?_
            have hrest : deadline ≤ clock (host.sleep slice (host.now w1.host).2) +
                k * cancelPollSlice := by
              have hsplit : (k + 1) * cancelPollSlice = k * cancelPollSlice + cancelPollSlice :=
                Nat.succ_mul k cancelPollSlice
              omega
            refine (ih (k := k) (by omega) hrest).mono ?_
            intro r w' hend
            exact ⟨hend.1.trans hlog, hend.2⟩

theorem KeepsTime.interruptibleSleep {fuel : ℕ} (hfuel : slicesOfInterval < fuel)
    (w : World σ Exchange) :
    Finishes (fun r w' => w'.log = w.log ∧ ∃ slept, r = .ok slept ∧
      (slept = true → clock w.host + attemptPollInterval ≤ clock w'.host))
      (interruptibleSleep host input fuel attemptPollInterval) w := by
  unfold Label309.interruptibleSleep
  by_cases hnone : input.cancel.isNone = true
  · rw [if_pos hnone]
    refine Finishes.after (b := ())
      (v := { w with host := host.sleep attemptPollInterval w.host }) rfl ?_
    exact Finishes.pure ⟨rfl, true, rfl, fun _ => h.sleep _ _⟩
  · rw [if_neg hnone]
    obtain ⟨hbefore, hafter⟩ := h.now w.host
    refine Finishes.after (b := (host.now w.host).1)
      (v := { w with host := (host.now w.host).2 }) rfl ?_
    have hdeadline : (host.now w.host).1 + attemptPollInterval ≤
        clock (host.now w.host).2 + slicesOfInterval * cancelPollSlice := by
      have hslices : slicesOfInterval * cancelPollSlice = attemptPollInterval := by decide
      omega
    refine (h.sleepUntil hfuel hdeadline).mono ?_
    intro r w' hend
    obtain ⟨hlog, slept, hr, htime⟩ := hend
    exact ⟨hlog, slept, hr, fun hslept => (Nat.add_le_add_right hbefore _).trans (htime hslept)⟩

theorem KeepsTime.getAttempt (url : String) (w : World σ Exchange) :
    Finishes (fun _ w' => SendsAtMost 1 0 0 w w' ∧ clock w.host ≤ clock w'.host)
      (viaHttp (send config json url .get (jsonHeaders config.apiKey none) .none)) w := by
  refine Finishes.mapError (Finishes.bind
    (P := fun _ w1 => SendsAtMost 1 0 0 w w1 ∧ clock w.host ≤ clock w1.host) ?_
    (fun _ _ hsent => hsent) ?_)
  · exact Finishes.ofStep ⟨⟨[_], rfl, by simp⟩, h.answers _ _ _ _ _⟩
  · intro response w1 hsent
    cases throwIfNotOk json response with
    | ok response => exact Finishes.pure hsent
    | error e => exact Finishes.throw hsent

/-- An attempt that stays open is polled once more than the deadline has intervals. -/
theorem KeepsTime.pollUntil {url sid attemptId : String} {deadline k fuel : ℕ}
    (hfuel : k + slicesOfInterval < fuel) {w : World σ Exchange}
    (hdeadline : deadline ≤ clock w.host + k * attemptPollInterval) :
    Finishes (fun _ w' => SendsAtMost (k + 1) 0 0 w w')
      (pollUntil json bodies host config input url sid attemptId deadline fuel) w := by
  induction fuel generalizing k w with
  | zero => omega
  | succ fuel ih =>
      obtain ⟨cancelled, w1, hrun, hlog, hclock⟩ := h.isCancelled w
      refine Finishes.after hrun (Finishes.unless (fun _ => .of_log_eq hlog) fun _ => ?_)
      have hpolled {w2 : World σ Exchange} (hsent : SendsAtMost 1 0 0 w1 w2) :
          SendsAtMost 1 0 0 w w2 := by
        simpa using (SendsAtMost.of_log_eq hlog : SendsAtMost 0 0 0 w w1).trans hsent
      refine Finishes.bind (h.getAttempt url w1) ?_ ?_
      · intro e w2 hsent
        exact (hpolled hsent.1).mono (by omega) le_rfl le_rfl
      intro response w2 hsent
      have hone := hpolled hsent.1
      have hdone : SendsAtMost (k + 1) 0 0 w w2 := hone.mono (by omega) le_rfl le_rfl
      refine Finishes.bind (P := fun _ w3 => w3 = w2) ⟨_, _, exec_parseBody _ _ w2, rfl⟩ ?_ ?_
      · intro e w3 hw
        rwa [hw]
      intro status w3 hw
      rw [hw]
      by_cases hcommitted : status.state = "committed"
      · rw [if_pos hcommitted]
        cases status.uri with
        | none => exact Finishes.throw hdone
        | some uri => exact Finishes.pure hdone
      rw [if_neg hcommitted]
      by_cases hreleased : status.state = "released"
      · rw [if_pos hreleased]
        exact Finishes.throw hdone
      rw [if_neg hreleased]
      obtain ⟨hbefore, hafter⟩ := h.now w2.host
      refine Finishes.after (b := (host.now w2.host).1)
        (v := { w2 with host := (host.now w2.host).2 }) rfl ?_
      refine Finishes.unless (fun _ => hdone) fun hdue => ?_
      -- The deadline is ahead, and so there is an interval left.
      obtain ⟨k, rfl⟩ : ∃ n, k = n + 1 := ⟨k - 1, by cases k <;> omega⟩
      refine Finishes.bind (h.interruptibleSleep (by omega) _) ?_ ?_
      · intro e w3 hend
        obtain ⟨-, slept, hr, -⟩ := hend
        cases hr
      intro slept w3 hend
      obtain ⟨hlog3, slept', hr, htime⟩ := hend
      cases hr
      have hasleep : SendsAtMost 1 0 0 w w3 := by
        simpa using hone.trans (.of_log_eq hlog3 : SendsAtMost 0 0 0 w2 w3)
      cases slept with
      | false => exact Finishes.throw (hasleep.mono (by omega) le_rfl le_rfl)
      | true =>
          have hrest : deadline ≤ clock w3.host + k * attemptPollInterval := by
            have hlater := htime rfl
            have hclock2 := hsent.2
            have hsplit : (k + 1) * attemptPollInterval = k * attemptPollInterval +
              attemptPollInterval := Nat.succ_mul k attemptPollInterval
            dsimp only at hlater
            omega
          refine (ih (k := k) (by omega) hrest).mono ?_
          intro r w' hpolls
          exact (hasleep.trans hpolls).mono (by omega) le_rfl le_rfl

variable {fuel : ℕ} (hfuel : pollsOfTimeout + slicesOfInterval < fuel)
include hfuel

theorem KeepsTime.pollAttempt (sid attemptId : String) :
    Costs (pollsOfTimeout + 1) 0 0
      (pollAttempt json bodies host config input fuel sid attemptId) := by
  intro w
  obtain ⟨hbefore, hafter⟩ := h.now w.host
  refine Finishes.after (b := (host.now w.host).1)
    (v := { w with host := (host.now w.host).2 }) rfl ?_
  have hdeadline : (host.now w.host).1 + attemptPollTimeout ≤
      clock (host.now w.host).2 + pollsOfTimeout * attemptPollInterval := by
    have hpolls : pollsOfTimeout * attemptPollInterval = attemptPollTimeout := by decide
    omega
  exact h.pollUntil hfuel hdeadline

/-- A resumed session that is not over has cost nothing. -/
theorem KeepsTime.terminalFromStatus (status : UploadSessionStatus) (w : World σ Exchange) :
    Finishes (fun r w' => SendsAtMost (pollsOfTimeout + 1) 0 0 w w' ∧ (r = .ok none → w' = w))
      (terminalFromStatus json bodies host config input fuel status) w := by
  unfold Label309.terminalFromStatus
  by_cases hcompleted : status.state = "completed"
  · rw [if_pos hcompleted]
    cases status.uri with
    | none => exact Finishes.throw ⟨.of_log_eq rfl, nofun⟩
    | some uri => exact Finishes.pure ⟨.of_log_eq rfl, nofun⟩
  rw [if_neg hcompleted]
  by_cases hfailed : status.state = "failed"
  · rw [if_pos hfailed]
    exact Finishes.throw ⟨.of_log_eq rfl, nofun⟩
  rw [if_neg hfailed]
  by_cases hexpired : status.state = "expired"
  · rw [if_pos hexpired]
    exact Finishes.throw ⟨.of_log_eq rfl, nofun⟩
  rw [if_neg hexpired]
  by_cases hassembling : status.state = "assembling"
  · rw [if_pos hassembling]
    cases status.attemptId with
    | none => exact Finishes.pure ⟨.of_log_eq rfl, fun _ => rfl⟩
    | some attemptId =>
        refine Finishes.bind (h.pollAttempt hfuel status.sessionId attemptId w) ?_ ?_
        · intro e w1 hsent
          exact ⟨hsent, nofun⟩
        · intro done w1 hsent
          exact Finishes.pure ⟨hsent, nofun⟩
  · rw [if_neg hassembling]
    exact Finishes.pure ⟨.of_log_eq rfl, fun _ => rfl⟩

theorem KeepsTime.completeBodyToResult (sid : String) (body : List UInt8) :
    Costs (pollsOfTimeout + 1) 0 0
      (completeBodyToResult json bodies host config input fuel sid body) := by
  apply Costs.after (costs_parseBody _ _)
  intro value
  cases (value.get "uri").bind JsonValue.asStr with
  | some uri => exact Costs.pure _
  | none =>
      cases (value.get "attempt_id").bind JsonValue.asStr with
      | some attemptId => exact h.pollAttempt hfuel sid attemptId
      | none => exact Costs.throw _

theorem KeepsTime.completeAttempts (session : SessionGrid) (url : String)
    (headers : List (String × String)) (attempts : ℕ) (bytesAcked : UInt64) :
    Costs (attempts + (pollsOfTimeout + 1)) attempts 0
      (completeAttempts json bodies sha256 host config input fuel session url headers attempts
        bytesAcked) := by
  induction attempts generalizing bytesAcked with
  | zero => exact Costs.throw _
  | succ attempts ih =>
      apply Costs.after costs_isCancelled
      intro cancelled
      apply Costs.unless
      refine Costs.mono (Costs.bind (g := attempts + 1 + (pollsOfTimeout + 1))
        (p := attempts) (d := 0) (costs_sendRaw.mapError _) ?_) ?_ ?_ ?_
      · intro response
        cases throwIfNotOk json response with
        | ok response =>
            exact (h.completeBodyToResult hfuel _ _).mono (by omega) (by omega) le_rfl
        | error e =>
            apply Costs.unless
            refine Costs.mono (Costs.bind (costs_getStatus _) (g := attempts +
              (pollsOfTimeout + 1)) (p := attempts) (d := 0) ?_) ?_ ?_ ?_
            · intro status
              exact Costs.ite (ih _) (Costs.after (costs_sendMissingChunks _ _ _) fun _ => ih _)
            · omega
            · omega
            · omega
      · simp [requestCost]
      · simp [requestCost, Nat.add_comm]
      · simp [requestCost]

/-! ## The whole upload -/

/-- A session is completed at most three times, its status read as often, and its attempt polled. -/
theorem KeepsTime.driveSession (session : SessionGrid) :
    Costs (completeRetryAttempts + 1 + (pollsOfTimeout + 1)) (completeRetryAttempts + 1) 1
      (driveSession json bodies sha256 host config input fuel session) := by
  intro w
  refine Finishes.bind (finishes_orAbandon (costs_sendMissingChunks _ _ _ w)) ?_ ?_
  · intro e w1 hend
    rcases hend with hsent | ⟨-, w2, hsent, hgone⟩
    · exact hsent.mono (by omega) (by omega) (by omega)
    · exact (hsent.trans hgone).mono (by omega) (by omega) (by omega)
  intro bytesAcked w1 hend
  rcases hend with hsent | ⟨⟨e, he⟩, -⟩
  · refine (finishes_orAbandon (h.completeAttempts hfuel session _ _ _ bytesAcked w1)).mono ?_
    intro r w' hcompleted
    rcases hcompleted with hrest | ⟨-, w2, hrest, hgone⟩
    · exact (hsent.trans hrest).mono (by omega) (by omega) (by omega)
    · exact ((hsent.trans hrest).trans hgone).mono (by omega) (by omega) (by omega)
  · cases he

theorem KeepsTime.resumeSession (sid : String) :
    Costs (completeRetryAttempts + 2 + (pollsOfTimeout + 1)) (completeRetryAttempts + 1) 1
      (resumeSession json bodies sha256 host config input fuel sid) := by
  apply Costs.after costs_isCancelled
  intro cancelled
  apply Costs.unless
  refine Costs.mono (Costs.bind (costs_getStatus _)
    (g := completeRetryAttempts + 1 + (pollsOfTimeout + 1))
    (p := completeRetryAttempts + 1) (d := 1) ?_) (by omega) (by omega) (by omega)
  intro status w
  refine Finishes.bind (finishes_orAbandon (h.terminalFromStatus hfuel status w)) ?_ ?_
  · intro e w1 hend
    rcases hend with ⟨hsent, -⟩ | ⟨-, w2, ⟨hsent, -⟩, hgone⟩
    · exact hsent.mono (by omega) (by omega) (by omega)
    · exact (hsent.trans hgone).mono (by omega) (by omega) (by omega)
  intro done w1 hend
  rcases hend with ⟨hsent, hsame⟩ | ⟨⟨e, he⟩, -⟩
  · cases done with
    | some done => exact Finishes.pure (hsent.mono (by omega) (by omega) (by omega))
    | none =>
        rw [hsame rfl]
        exact h.driveSession hfuel _ w
  · cases he

theorem KeepsTime.freshSession :
    Costs (completeRetryAttempts + 1 + (pollsOfTimeout + 1)) (completeRetryAttempts + 2) 1
      (freshSession json bodies sha256 host config input fuel) := by
  apply Costs.after costs_isCancelled
  intro cancelled
  apply Costs.unless
  apply Costs.after (costs_sourceLen _)
  intro totalBytes
  apply Costs.after (costs_streamSha256 _)
  intro wholeSha256
  refine Costs.mono (Costs.bind (costs_createSession _ _ _)
    (g := completeRetryAttempts + 1 + (pollsOfTimeout + 1))
    (p := completeRetryAttempts + 1) (d := 1) ?_) (by omega) (by omega) (by omega)
  intro outcome
  cases outcome with
  | deduplicated dedup => exact Costs.pure _
  | created created =>
      dsimp only
      cases input.onSessionCreated with
      | some cb => exact Costs.after (Costs.ofStep fun _ => rfl) fun _ => h.driveSession hfuel _
      | none => exact h.driveSession hfuel _

theorem KeepsTime.chunked :
    Costs (completeRetryAttempts + 2 + (pollsOfTimeout + 1)) (completeRetryAttempts + 2) 1
      (chunked json bodies sha256 host config input fuel) := by
  unfold Label309.chunked
  cases input.resumeSessionId with
  | some sid => exact (h.resumeSession hfuel sid).mono le_rfl (by omega) le_rfl
  | none => exact (h.freshSession hfuel).mono (by omega) le_rfl le_rfl

end Waiting

/-- **Every upload ends, whatever the gateway answers**, after at most 605 reads, four posts and one
deletion. Only the chunks take more, by the size of the source. -/
theorem uploadResumable_finishes {σ : Type} {json : JsonPrimitives} {bodies : UploadBodies}
    {sha256 : List UInt8 → Digest} {host : UploadHost σ} {config : NamespaceConfig σ}
    {input : ResumableUploadInput σ} {clock : σ → ℕ} (htime : KeepsTime host config input clock)
    {fuel : ℕ} (hfuel : 620 < fuel) (w : World σ Exchange) :
    ∃ r w', exec (uploadResumable json bodies sha256 host config input fuel) w = some (r, w') ∧
      SendsAtMost 605 4 1 w w' := by
  have hchunked : Costs 605 4 1 (chunked json bodies sha256 host config input fuel) :=
    htime.chunked hfuel
  suffices h : Costs 605 4 1 (uploadResumable json bodies sha256 host config input fuel) from h w
  unfold uploadResumable
  cases input.resumeSessionId with
  | some sid => exact hchunked
  | none =>
      apply Costs.after (costs_sourceLen _)
      intro totalBytes
      exact Costs.ite (costs_singleShot.mono (by omega) (by omega) (by omega)) hchunked

/-! ## A gateway that never decides -/

/-- A host whose time is that of the sleeps. -/
def sleepingHost : UploadHost ℕ := { noFiles ℕ with sleep := fun t s => s + t, now := fun s => (s, s) }

/-- The body of a session that is being assembled. -/
def assemblingBody : List UInt8 :=
  utf8Bytes ("\x7b\"session_id\":\"s\",\"state\":\"assembling\",\"sha256\":\"aa\"," ++
    "\"total_bytes\":1,\"chunk_bytes\":1,\"chunk_count\":1,\"received\":[0]," ++
    "\"expires_at\":\"2026-01-01T00:00:00Z\",\"attempt_id\":\"a\"\x7d")

/-- The body of its attempt. -/
def reservedBody : List UInt8 :=
  utf8Bytes ("\x7b\"attempt_id\":\"a\",\"state\":\"reserved\",\"sha256\":\"aa\",\"bytes\":1," ++
    "\"backend\":\"arweave\"\x7d")

/-- Every request succeeds, with the attempt or the session in the answer. -/
def agreeable : NamespaceConfig ℕ where
  apiKey := none
  baseUrl := "https://gateway.example"
  transport := fun url _ _ _ s =>
    (.ok ⟨200, if url = "https://gateway.example/poe/uploads/attempts/a" then reservedBody
      else assemblingBody, none, none⟩, s)

/-- The session is being assembled, and its attempt is reserved. -/
def undecidedBodies : UploadBodies :=
  { ackBodies with
    status := fun body =>
      if body = assemblingBody then
        .ok {
          sessionId := "s"
          state := "assembling"
          sha256 := "aa"
          totalBytes := 1
          chunkBytes := 1
          chunkCount := 1
          missing := []
          attemptId := some "a"
          uri := none }
      else .error "missing field"
    attempt := fun body =>
      if body = reservedBody then .ok ⟨"reserved", "aa", 1, none, none, none⟩
      else .error "missing field" }

def resumedInput : ResumableUploadInput ℕ := { plainInput ℕ with resumeSessionId := some "s" }

theorem keepsTime_sleepingHost : KeepsTime sleepingHost agreeable resumedInput id where
  now := fun _ => ⟨le_rfl, le_rfl⟩
  sleep := fun _ _ => le_rfl
  answers := fun _ _ _ _ _ => le_rfl
  poll := by
    intro poll hpoll
    cases hpoll

/-- An upload that resumes this session ends. -/
theorem uploadResumable_finishes_undecided : ∃ r w',
    exec (uploadResumable noJson undecidedBodies noDigest sleepingHost agreeable resumedInput 621)
      ⟨0, []⟩ = some (r, w') ∧ SendsAtMost 605 4 1 ⟨0, []⟩ w' :=
  uploadResumable_finishes keepsTime_sleepingHost (by decide) ⟨0, []⟩

end Label309
