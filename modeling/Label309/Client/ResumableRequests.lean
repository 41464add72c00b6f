import Label309.Client.ResumableSteps

/-!
# The requests of an upload

Every request of an upload goes to a route under the uploads, and all but two kinds leave the set of
sessions alone: the create request and the `DELETE` of a session.
-/
namespace Label309
open Traced

section Requests
variable {σ : Type} (config : NamespaceConfig σ)

/-- A route under the uploads. -/
def UnderUploads (url : String) : Prop := ∃ rest, url = config.baseUrl ++ ("/poe/uploads" ++ rest)

/-- A request that neither creates nor deletes a session. -/
def Quiet (e : Exchange) : Prop :=
  e.method ≠ .delete ∧ (e.method = .post → e.url ≠ sessionsUrl config) ∧
    UnderUploads config e.url

/-- Every request of the program is quiet. -/
def Quietly {E α : Type} (m : Program (World σ Exchange) E α) : Prop :=
  Within (GrowsBy (Quiet config)) m

/-- Every request of the program goes to a route under the uploads. -/
def Uploading {E α : Type} (m : Program (World σ Exchange) E α) : Prop :=
  Within (GrowsBy fun e => UnderUploads config e.url) m

end Requests

section Rules
variable {σ E α β : Type} {config : NamespaceConfig σ}

theorem Quietly.uploading {m : Program (World σ Exchange) E α} (h : Quietly config m) :
    Uploading config m :=
  Within.mono (fun _ _ => GrowsBy.mono fun _ hquiet => hquiet.2.2) h

theorem Uploading.pure (a : α) : Uploading config (pure a : Program (World σ Exchange) E α) :=
  Within.pure GrowsBy.refl a

theorem Uploading.throw (e : E) : Uploading config (throw e : Program (World σ Exchange) E α) :=
  Within.throw GrowsBy.refl e

theorem Uploading.bind {m : Program (World σ Exchange) E α}
    {f : α → Program (World σ Exchange) E β} (hm : Uploading config m)
    (hf : ∀ a, Uploading config (f a)) : Uploading config (m >>= f) :=
  Within.bind (fun _ _ _ => GrowsBy.trans) hm hf

theorem Uploading.unless {c : Prop} [Decidable c] (e : E) {rest : Program (World σ Exchange) E α}
    (h : Uploading config rest) :
    Uploading config
      (if c then (do let _ ← (MonadExcept.throw e : Program (World σ Exchange) E Unit); rest)
        else rest) :=
  Within.unless GrowsBy.refl e h

end Rules

/-! ## Routes -/

section Routes
variable {σ : Type} {config : NamespaceConfig σ}

theorem UnderUploads.append {url : String} (h : UnderUploads config url) (rest : String) :
    UnderUploads config (url ++ rest) := by
  obtain ⟨first, hurl⟩ := h
  exact ⟨first ++ rest, by rw [hurl, String.append_assoc, String.append_assoc]⟩

/-- The route of a session. -/
theorem under_sessionUrl (sid : String) : UnderUploads config (sessionUrl config sid) := by
  refine ⟨"/sessions/" ++ encodePathSegment sid, ?_⟩
  have hsplit : "/poe/uploads/sessions/" = "/poe/uploads" ++ "/sessions/" := by decide
  simp only [sessionUrl, hsplit, String.append_assoc]

theorem under_chunkUrl (sid : String) (index : UInt32) :
    UnderUploads config (chunkUrl config sid index) :=
  ((under_sessionUrl sid).append _).append _

/-- The route of an attempt. -/
theorem under_attemptUrl (attemptId : String) :
    UnderUploads config (attemptUrl config attemptId) := by
  refine ⟨"/attempts/" ++ encodePathSegment attemptId, ?_⟩
  have hsplit : "/poe/uploads/attempts/" = "/poe/uploads" ++ "/attempts/" := by decide
  simp only [attemptUrl, hsplit, String.append_assoc]

/-- The completion goes to a session, not to all of them. -/
theorem completeUrl_ne (sid : String) : completeUrl config sid ≠ sessionsUrl config := by
  intro heq
  have hlen := congrArg String.length heq
  simp only [completeUrl, sessionUrl, sessionsUrl, String.length_append] at hlen
  have hslash : "/poe/uploads/sessions".length < "/poe/uploads/sessions/".length := by decide
  omega

end Routes

/-! ## The quiet steps -/

section Steps
variable {σ : Type} {json : JsonPrimitives} {bodies : UploadBodies} {sha256 : List UInt8 → Digest}
  {host : UploadHost σ} {config : NamespaceConfig σ} {input : ResumableUploadInput σ}

theorem quietly_sendRaw {url : String} {method : HttpMethod} {headers : List (String × String)}
    {body : RequestBody} (hdelete : method ≠ .delete)
    (hpost : method = .post → url ≠ sessionsUrl config) (hunder : UnderUploads config url) :
    Quietly config (sendRaw config url method headers body) :=
  growsBy_sendRaw fun _ => ⟨hdelete, hpost, hunder⟩

theorem quietly_get {url : String} (hunder : UnderUploads config url)
    (headers : List (String × String)) (body : RequestBody) :
    Quietly config (sendRaw config url .get headers body) :=
  quietly_sendRaw (by decide) nofun hunder

theorem quietly_isCancelled : Quietly config (isCancelled input) :=
  (callerKeeps_growsBy _).isCancelled

theorem quietly_sourceLen (source : ResumableSource) : Quietly config (sourceLen host source) :=
  (hostKeeps_growsBy _).sourceLen source

theorem quietly_streamSha256 (source : ResumableSource) :
    Quietly config (streamSha256 sha256 host source) :=
  (hostKeeps_growsBy _).streamSha256 source

theorem quietly_getStatus (sid : String) : Quietly config (getStatus json bodies config sid) :=
  (keeps_growsBy _).getStatus (quietly_get (under_sessionUrl sid))

theorem quietly_sendMissingChunks (session : SessionGrid) (missing : List UInt32)
    (bytesAcked : UInt64) :
    Quietly config (sendMissingChunks json bodies sha256 host config input session missing
      bytesAcked) :=
  (hostKeeps_growsBy _).sendMissingChunks (callerKeeps_growsBy _)
    (fun index _ _ => quietly_sendRaw (by decide) nofun (under_chunkUrl _ index))
    (growsBy_reportProgress _) missing bytesAcked

theorem quietly_terminalFromStatus (fuel : ℕ) (status : UploadSessionStatus) :
    Quietly config (terminalFromStatus json bodies host config input fuel status) :=
  (hostKeeps_growsBy _).terminalFromStatus (callerKeeps_growsBy _)
    (fun attemptId => quietly_get (under_attemptUrl attemptId)) fuel status

theorem quietly_completeSession (fuel : ℕ) (session : SessionGrid) (bytesAcked : UInt64) :
    Quietly config (completeSession json bodies sha256 host config input fuel session bytesAcked) :=
  (hostKeeps_growsBy _).completeAttempts (callerKeeps_growsBy _)
    (fun _ => quietly_sendRaw (by decide) (fun _ => completeUrl_ne _)
      ((under_sessionUrl _).append _))
    (quietly_get (under_sessionUrl _)) (fun attemptId => quietly_get (under_attemptUrl attemptId))
    (fun _ _ _ => quietly_sendMissingChunks session _ _) (fun _ _ _ _ _ _ _ => trivial) _ _ _ trivial

/-! ## The whole upload -/

theorem uploading_sendRaw {url : String} (hunder : UnderUploads config url) (method : HttpMethod)
    (headers : List (String × String)) (body : RequestBody) :
    Uploading config (sendRaw config url method headers body) :=
  growsBy_sendRaw fun _ => hunder

theorem uploading_orAbandon {α : Type} (sid : String) {m : Upload σ α} (hm : Uploading config m) :
    Uploading config (orAbandon json config sid m) :=
  (keeps_growsBy _).orAbandon (uploading_sendRaw (under_sessionUrl sid) _) hm

theorem uploading_createSession (wholeSha256 : Digest) (totalBytes chunkRequest : UInt64) :
    Uploading config
      (createSession json bodies config input wholeSha256 totalBytes chunkRequest) := by
  have hunder : UnderUploads config (sessionsUrl config) := by
    refine ⟨"/sessions", ?_⟩
    have hsplit : "/poe/uploads/sessions" = "/poe/uploads" ++ "/sessions" := by decide
    rw [sessionsUrl, hsplit]
  apply Uploading.bind (Within.mapError (uploading_sendRaw hunder _ _ _) _)
  intro response
  apply Uploading.unless
  cases throwIfNotOk json response with
  | error e => exact Uploading.throw _
  | ok response =>
      apply Within.ite
      · exact Uploading.bind ((keeps_growsBy _).parseBody _ _)
          fun dedup => Uploading.pure _
      · exact Uploading.bind ((keeps_growsBy _).parseBody _ _)
          fun created => Uploading.pure _

theorem uploading_driveSession (fuel : ℕ) (session : SessionGrid) :
    Uploading config (driveSession json bodies sha256 host config input fuel session) :=
  Uploading.bind (uploading_orAbandon _ (quietly_sendMissingChunks _ _ _).uploading)
    fun _ => uploading_orAbandon _ (quietly_completeSession _ _ _).uploading

theorem uploading_chunked (fuel : ℕ) :
    Uploading config (chunked json bodies sha256 host config input fuel) := by
  unfold chunked
  cases input.resumeSessionId with
  | some sid =>
      apply Uploading.bind quietly_isCancelled.uploading
      intro cancelled
      apply Uploading.unless
      apply Uploading.bind (quietly_getStatus sid).uploading
      intro status
      apply Uploading.bind (uploading_orAbandon _ (quietly_terminalFromStatus _ _).uploading)
      intro done
      cases done with
      | some done => exact Uploading.pure done
      | none => exact uploading_driveSession _ _
  | none =>
      apply Uploading.bind quietly_isCancelled.uploading
      intro cancelled
      apply Uploading.unless
      apply Uploading.bind (quietly_sourceLen _).uploading
      intro totalBytes
      apply Uploading.bind (quietly_streamSha256 _).uploading
      intro wholeSha256
      apply Uploading.bind (uploading_createSession _ _ _)
      intro outcome
      cases outcome with
      | deduplicated dedup => exact Uploading.pure _
      | created created =>
          cases hcallback : input.onSessionCreated with
          | none => exact uploading_driveSession _ _
          | some cb =>
              exact Uploading.bind (Within.ofStep fun w => GrowsBy.of_log_eq rfl) fun _ =>
                uploading_driveSession _ _

theorem uploading_singleShot : Uploading config (singleShot json bodies host config input) := by
  have hunder : UnderUploads config (config.baseUrl ++ "/poe/uploads") :=
    ⟨"", by rw [String.append_empty]⟩
  apply Uploading.bind quietly_isCancelled.uploading
  intro cancelled
  apply Uploading.unless
  apply Uploading.bind
  · cases input.source with
    | bytes b => exact Uploading.pure b
    | path p => exact (hostKeeps_growsBy _).onFileContents p
  intro bytes
  apply Uploading.bind
  · apply Within.mapError
    apply Uploading.bind (uploading_sendRaw hunder _ _ _)
    intro response
    cases throwIfNotOk json response with
    | ok response => exact Uploading.pure response
    | error e => exact Uploading.throw e
  intro response
  apply Uploading.bind
  · apply Within.mapError
    unfold decodeBody
    cases bodies.uploads response.body with
    | ok value => exact Uploading.pure value
    | error e => exact Uploading.throw _
  intro parsed
  cases parsed.uploads with
  | nil => exact Uploading.throw _
  | cons entry rest =>
      cases entry with
      | success idx ok uri sha256 bytes =>
          exact Uploading.bind (growsBy_reportProgress _ _)
            fun _ => Uploading.pure _
      | failure idx ok error => exact Uploading.throw _

theorem uploading_uploadResumable (fuel : ℕ) :
    Uploading config (uploadResumable json bodies sha256 host config input fuel) := by
  unfold uploadResumable
  cases input.resumeSessionId with
  | some sid => exact uploading_chunked fuel
  | none =>
      apply Uploading.bind (quietly_sourceLen _).uploading
      intro totalBytes
      exact Within.ite uploading_singleShot (uploading_chunked fuel)

end Steps

end Label309
