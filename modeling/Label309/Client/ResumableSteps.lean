import Label309.Client.Resumable

/-!
# The steps of an upload

A relation between worlds that the host and the requests of a step keep is kept by the step. Each
step is gone through once here, whatever the relation.
-/
namespace Label309
open Traced

section Routes
variable {σ : Type} (config : NamespaceConfig σ)

def chunkUrl (sessionId : String) (index : UInt32) : String :=
  sessionUrl config sessionId ++ "/chunks/" ++ toString index

def completeUrl (sessionId : String) : String := sessionUrl config sessionId ++ "/complete"

def attemptUrl (attemptId : String) : String :=
  config.baseUrl ++ "/poe/uploads/attempts/" ++ encodePathSegment attemptId

end Routes

section Steps
variable {σ : Type} {json : JsonPrimitives} {bodies : UploadBodies} {sha256 : List UInt8 → Digest}
  {host : UploadHost σ} {config : NamespaceConfig σ} {input : ResumableUploadInput σ}
  {R : World σ Exchange → World σ Exchange → Prop}

/-- A relation that a sequence of steps keeps when each of them does. -/
structure Keeps (R : World σ Exchange → World σ Exchange → Prop) : Prop where
  refl : ∀ w, R w w
  trans : ∀ a b c, R a b → R b c → R a c

/-- The relation is kept by the clock and the files. -/
structure HostKeeps (host : UploadHost σ) (R : World σ Exchange → World σ Exchange → Prop) : Prop
    extends Keeps R where
  now : ∀ w, R w { w with host := (host.now w.host).2 }
  sleep : ∀ t w, R w { w with host := host.sleep t w.host }
  fileLen : ∀ p w, R w { w with host := (host.fileLen p w.host).2 }
  fileContents : ∀ p w, R w { w with host := (host.fileContents p w.host).2 }
  fileRead : ∀ p offset want w, R w { w with host := (host.fileRead p offset want w.host).2 }

/-- The relation is kept by the cancel of the caller. -/
structure CallerKeeps (input : ResumableUploadInput σ)
    (R : World σ Exchange → World σ Exchange → Prop) : Prop extends Keeps R where
  poll : ∀ poll, input.cancel = some poll → ∀ w, R w { w with host := (poll w.host).2 }

theorem Within.ite {E α : Type} {c : Prop} [Decidable c] {m n : Program (World σ Exchange) E α}
    (hm : Within R m) (hn : Within R n) : Within R (if c then m else n) := by
  by_cases hc : c
  · rwa [if_pos hc]
  · rwa [if_neg hc]

theorem exec_parseBody {α : Type} (decoder : List UInt8 → Except String α) (body : List UInt8)
    (w : World σ Exchange) :
    exec (parseBody decoder body) w = some ((decoder body).mapError .decode, w) := by
  unfold parseBody
  cases decoder body <;> rfl

section Requests
variable (h : Keeps R)
include h

theorem Keeps.parseBody {α : Type} (decoder : List UInt8 → Except String α) (body : List UInt8) :
    Within R (parseBody (σ := σ) decoder body) := by
  unfold Label309.parseBody
  cases decoder body with
  | ok value => exact Within.pure h.refl value
  | error e => exact Within.throw h.refl _

/-- A response that is refused when it is no success. -/
theorem Keeps.send {url : String} {method : HttpMethod} {headers : List (String × String)}
    {body : RequestBody} (hsend : Within R (sendRaw config url method headers body)) :
    Within R (send config json url method headers body) := by
  apply Within.bind h.trans hsend
  intro response
  cases throwIfNotOk json response with
  | ok response => exact Within.pure h.refl response
  | error e => exact Within.throw h.refl e

theorem Keeps.getStatus {sid : String} (hget : ∀ headers body,
      Within R (sendRaw config (sessionUrl config sid) .get headers body)) :
    Within R (getStatus json bodies config sid) := by
  apply Within.bind h.trans (Within.mapError (h.send (hget _ _)) _)
  intro response
  exact h.parseBody _ _

end Requests

section Abandon

/-- An outcome of a step that is not cancelled is kept. A cancel is followed by an abandonment. -/
theorem exec_orAbandon {α : Type} {sid : String} {m : Upload σ α} {w w' : World σ Exchange}
    {r : Except ResumableUploadError α}
    (hrun : exec (orAbandon json config sid m) w = some (r, w')) :
    ∃ first w1, exec m w = some (first, w1) ∧
      (first ≠ .error .cancelled ∧ r = first ∧ w' = w1 ∨
        first = .error .cancelled ∧ ∃ gone,
          exec (abandonSession json config sid) w1 = some (gone, w') ∧
          (gone = .ok () ∧ r = .error .cancelled ∨
            ∃ source, gone = .error source ∧ r = .error (.abandonFailed sid source))) := by
  rw [orAbandon, exec_onOutcome] at hrun
  obtain ⟨⟨first, w1⟩, hfirst, hrest⟩ := Option.bind_eq_some_iff.mp hrun
  refine ⟨first, w1, hfirst, ?_⟩
  by_cases hcancel : first = .error .cancelled
  · rw [hcancel] at hrest
    obtain ⟨⟨gone, w2⟩, habandon, heq⟩ := Option.map_eq_some_iff.mp
      (show (exec (abandonSession json config sid) w1).map _ = some (r, w') from hrest)
    refine .inr ⟨hcancel, gone, ?_⟩
    cases gone with
    | ok u =>
        cases heq
        exact ⟨habandon, .inl ⟨rfl, rfl⟩⟩
    | error source =>
        cases heq
        exact ⟨habandon, .inr ⟨source, rfl, rfl⟩⟩
  · refine .inl ⟨hcancel, ?_⟩
    cases first with
    | ok a =>
        cases hrest
        exact ⟨rfl, rfl⟩
    | error err =>
        cases err with
        | cancelled => exact absurd rfl hcancel
        | _ =>
            cases hrest
            exact ⟨rfl, rfl⟩

/-- A step that is not cancelled is followed by nothing. -/
theorem exec_orAbandon_of_ne {α : Type} {sid : String} {m : Upload σ α} {w w' : World σ Exchange}
    {r : Except ResumableUploadError α} (hrun : exec m w = some (r, w'))
    (hcancel : r ≠ .error .cancelled) :
    exec (orAbandon json config sid m) w = some (r, w') := by
  rw [orAbandon, exec_onOutcome, hrun]
  cases r with
  | ok a => rfl
  | error err =>
      cases err with
      | cancelled => exact absurd rfl hcancel
      | _ => rfl

theorem Keeps.abandonSession (h : Keeps R) {sid : String} (hdelete : ∀ headers body,
      Within R (sendRaw config (sessionUrl config sid) .delete headers body)) :
    Within R (abandonSession json config sid) := by
  apply Within.bind h.trans (hdelete _ _)
  intro response
  apply Within.ite (Within.pure h.refl ())
  cases throwIfNotOk json response with
  | ok response => exact Within.pure h.refl ()
  | error e => exact Within.throw h.refl e

theorem Keeps.orAbandon (h : Keeps R) {α : Type} {sid : String} {m : Upload σ α}
    (hdelete : ∀ headers body,
      Within R (sendRaw config (sessionUrl config sid) .delete headers body))
    (hm : Within R m) : Within R (orAbandon json config sid m) := by
  intro w r w' hrun
  obtain ⟨first, w1, hfirst, hend⟩ := exec_orAbandon hrun
  have hkept := hm w first w1 hfirst
  rcases hend with ⟨-, -, hw⟩ | ⟨-, gone, hgone, -⟩
  · rwa [hw]
  · exact h.trans w w1 w' hkept (h.abandonSession hdelete w1 gone w' hgone)

end Abandon

section Caller
variable (h : CallerKeeps input R)
include h

theorem CallerKeeps.isCancelled : Within R (isCancelled input) := by
  unfold Label309.isCancelled
  cases hcancel : input.cancel with
  | none => exact Within.pure h.refl false
  | some poll => exact Within.ofStep (h.poll poll hcancel)

theorem CallerKeeps.putChunkAttempts {url : String}
    (hput : ∀ headers body, Within R (sendRaw config url .put headers body)) (index : UInt32)
    (chunk : List UInt8) (attempts : ℕ) (lastErr : Option ResumableUploadError) :
    Within R (putChunkAttempts json bodies sha256 config input url index chunk attempts
      lastErr) := by
  induction attempts generalizing lastErr with
  | zero => exact Within.throw h.refl _
  | succ attempts ih =>
      apply Within.bind h.trans h.isCancelled
      intro cancelled
      apply Within.unless h.refl
      apply Within.bind h.trans (Within.mapError (hput _ _) _)
      intro response
      cases throwIfNotOk json response with
      | ok response => exact h.parseBody _ _
      | error e =>
          apply Within.unless h.refl
          exact ih _

theorem CallerKeeps.putChunkWithRetry {sid : String} {index : UInt32}
    (hput : ∀ headers body, Within R (sendRaw config (chunkUrl config sid index) .put headers body))
    (chunk : List UInt8) :
    Within R (putChunkWithRetry json bodies sha256 config input sid index chunk) :=
  h.putChunkAttempts hput _ _ _ _

end Caller

namespace HostKeeps
variable (h : HostKeeps host R)
include h

theorem onFileLen (path : String) : Within R (onFile path (host.fileLen path)) :=
  Within.ofStep (h.fileLen path)

theorem onFileContents (path : String) : Within R (onFile path (host.fileContents path)) :=
  Within.ofStep (h.fileContents path)

theorem sourceLen (source : ResumableSource) : Within R (sourceLen host source) := by
  cases source with
  | path p => exact h.onFileLen p
  | bytes b => exact Within.pure h.refl _

theorem streamSha256 (source : ResumableSource) : Within R (streamSha256 sha256 host source) := by
  cases source with
  | path p => exact Within.bind h.trans (h.onFileContents p) fun _ => Within.pure h.refl _
  | bytes b => exact Within.pure h.refl _

theorem readChunk (source : ResumableSource) (index : UInt32) (chunkBytes totalBytes : UInt64) :
    Within R (readChunk host source index chunkBytes totalBytes) := by
  apply Within.ite (Within.pure h.refl [])
  cases source with
  | bytes b => exact Within.ite (Within.throw h.refl _) (Within.pure h.refl _)
  | path p =>
      apply Within.bind h.trans (h.onFileLen p)
      intro sourceLen
      apply Within.unless h.refl
      apply Within.bind h.trans (Within.ofStep (h.fileRead p _ _))
      intro buf
      apply Within.unless h.refl
      exact Within.pure h.refl buf

variable (hc : CallerKeeps input R)
include hc

theorem sendMissingChunks {session : SessionGrid}
    (hput : ∀ index headers body,
      Within R (sendRaw config (chunkUrl config session.sessionId index) .put headers body))
    (hprogress : ∀ progress, Within R (reportProgress input progress))
    (missing : List UInt32) (bytesAcked : UInt64) :
    Within R (sendMissingChunks json bodies sha256 host config input session missing
      bytesAcked) := by
  induction missing generalizing bytesAcked with
  | nil => exact Within.pure h.refl bytesAcked
  | cons index missing ih =>
      apply Within.bind h.trans hc.isCancelled
      intro cancelled
      apply Within.unless h.refl
      apply Within.bind h.trans (h.readChunk _ _ _ _)
      intro chunk
      apply Within.bind h.trans (hc.putChunkWithRetry (hput index) _)
      intro ack
      apply Within.bind h.trans (hprogress _)
      intro reported
      exact ih _

theorem sleepUntil (deadline fuel : ℕ) : Within R (sleepUntil host input deadline fuel) := by
  induction fuel with
  | zero => exact Within.spent
  | succ fuel ih =>
      apply Within.bind h.trans hc.isCancelled
      intro cancelled
      cases cancelled with
      | true => exact Within.pure h.refl false
      | false =>
          apply Within.bind h.trans (Within.ofStep h.now)
          intro now
          apply Within.ite (Within.pure h.refl true)
          exact Within.bind h.trans (Within.ofStep (h.sleep _)) fun slept => ih

theorem interruptibleSleep (fuel total : ℕ) :
    Within R (interruptibleSleep host input fuel total) := by
  apply Within.ite
  · exact Within.bind h.trans (Within.ofStep (h.sleep _)) fun slept => Within.pure h.refl true
  · exact Within.bind h.trans (Within.ofStep h.now) fun now => h.sleepUntil hc _ _

theorem pollUntil {url : String}
    (hget : ∀ headers body, Within R (sendRaw config url .get headers body))
    (sid attemptId : String) (deadline fuel : ℕ) :
    Within R (pollUntil json bodies host config input url sid attemptId deadline fuel) := by
  induction fuel with
  | zero => exact Within.spent
  | succ fuel ih =>
      apply Within.bind h.trans hc.isCancelled
      intro cancelled
      apply Within.unless h.refl
      apply Within.bind h.trans (Within.mapError (h.send (hget _ _)) _)
      intro response
      apply Within.bind h.trans (h.parseBody _ _)
      intro status
      apply Within.ite
      · cases status.uri with
        | none => exact Within.throw h.refl _
        | some uri => exact Within.pure h.refl _
      apply Within.ite (Within.throw h.refl _)
      apply Within.bind h.trans (Within.ofStep h.now)
      intro now
      apply Within.unless h.refl
      apply Within.bind h.trans (h.interruptibleSleep hc _ _)
      intro slept
      cases slept with
      | true => exact ih
      | false => exact Within.throw h.refl _

theorem pollAttempt
    (hget : ∀ attemptId headers body,
      Within R (sendRaw config (attemptUrl config attemptId) .get headers body))
    (fuel : ℕ) (sid attemptId : String) :
    Within R (pollAttempt json bodies host config input fuel sid attemptId) :=
  Within.bind h.trans (Within.ofStep h.now) fun _ => h.pollUntil hc (hget attemptId) _ _ _ _

theorem terminalFromStatus
    (hget : ∀ attemptId headers body,
      Within R (sendRaw config (attemptUrl config attemptId) .get headers body))
    (fuel : ℕ) (status : UploadSessionStatus) :
    Within R (terminalFromStatus json bodies host config input fuel status) := by
  apply Within.ite
  · cases status.uri with
    | none => exact Within.throw h.refl _
    | some uri => exact Within.pure h.refl _
  apply Within.ite (Within.throw h.refl _)
  apply Within.ite (Within.throw h.refl _)
  apply Within.ite
  · cases status.attemptId with
    | none => exact Within.pure h.refl none
    | some attemptId =>
        exact Within.bind h.trans (h.pollAttempt hc hget _ _ _) fun done => Within.pure h.refl _
  · exact Within.pure h.refl none

theorem completeBodyToResult
    (hget : ∀ attemptId headers body,
      Within R (sendRaw config (attemptUrl config attemptId) .get headers body))
    (fuel : ℕ) (sid : String) (body : List UInt8) :
    Within R (completeBodyToResult json bodies host config input fuel sid body) := by
  apply Within.bind h.trans (h.parseBody _ _)
  intro value
  cases (value.get "uri").bind JsonValue.asStr with
  | some uri => exact Within.pure h.refl _
  | none =>
      cases (value.get "attempt_id").bind JsonValue.asStr with
      | some attemptId => exact h.pollAttempt hc hget _ _ _
      | none => exact Within.throw h.refl _

theorem completeAttempts {session : SessionGrid} {headers : List (String × String)}
    {P : UInt64 → Prop}
    (hpost : ∀ body, Within R (sendRaw config (completeUrl config session.sessionId) .post headers
      body))
    (hstatus : ∀ headers body,
      Within R (sendRaw config (sessionUrl config session.sessionId) .get headers body))
    (hget : ∀ attemptId headers body,
      Within R (sendRaw config (attemptUrl config attemptId) .get headers body))
    (hmissing : ∀ missing bytesAcked, P bytesAcked → Within R (Label309.sendMissingChunks json
      bodies sha256 host config input session missing bytesAcked))
    (hreturns : ∀ missing bytesAcked, P bytesAcked → Returns P (Label309.sendMissingChunks json
      bodies sha256 host config input session missing bytesAcked))
    (fuel attempts : ℕ) (bytesAcked : UInt64) (hacked : P bytesAcked) :
    Within R (completeAttempts json bodies sha256 host config input fuel session
      (completeUrl config session.sessionId) headers attempts bytesAcked) := by
  induction attempts generalizing bytesAcked with
  | zero => exact Within.throw h.refl _
  | succ attempts ih =>
      apply Within.bind h.trans hc.isCancelled
      intro cancelled
      apply Within.unless h.refl
      apply Within.bind h.trans (Within.mapError (hpost _) _)
      intro response
      cases throwIfNotOk json response with
      | ok response => exact h.completeBodyToResult hc hget _ _ _
      | error e =>
          apply Within.unless h.refl
          apply Within.bind h.trans (h.getStatus hstatus)
          intro status
          apply Within.ite (ih _ hacked)
          exact Within.bind_returns h.trans (hmissing _ _ hacked) (hreturns _ _ hacked)
            fun acked hacked => ih acked hacked

end HostKeeps

/-! ## Growing logs -/

theorem keeps_growsBy (P : Exchange → Prop) : Keeps (GrowsBy P : World σ Exchange → _ → Prop) where
  refl := GrowsBy.refl
  trans := fun _ _ _ => GrowsBy.trans

/-- The host asks nothing of the gateway. -/
theorem hostKeeps_growsBy (P : Exchange → Prop) : HostKeeps host (GrowsBy P) where
  toKeeps := keeps_growsBy P
  now := fun _ => GrowsBy.of_log_eq rfl
  sleep := fun _ _ => GrowsBy.of_log_eq rfl
  fileLen := fun _ _ => GrowsBy.of_log_eq rfl
  fileContents := fun _ _ => GrowsBy.of_log_eq rfl
  fileRead := fun _ _ _ _ => GrowsBy.of_log_eq rfl

theorem callerKeeps_growsBy (P : Exchange → Prop) : CallerKeeps input (GrowsBy P) where
  toKeeps := keeps_growsBy P
  poll := fun _ _ _ => GrowsBy.of_log_eq rfl

/-- A request of a kind. -/
theorem growsBy_sendRaw {P : Exchange → Prop} {url : String} {method : HttpMethod}
    {headers : List (String × String)} {body : RequestBody}
    (h : ∀ answer, P ⟨url, method, headers, body, answer⟩) :
    Within (GrowsBy P) (sendRaw config url method headers body) := by
  apply Within.ofStep
  intro w
  exact GrowsBy.of_append rfl (h _)

theorem growsBy_reportProgress (P : Exchange → Prop) (progress : UploadProgress) :
    Within (GrowsBy P) (reportProgress input progress) := by
  unfold reportProgress
  cases input.onProgress with
  | none => exact Within.pure GrowsBy.refl ()
  | some cb => exact Within.ofStep fun w => GrowsBy.of_log_eq rfl

end Steps

end Label309
