import Label309.Client.ResumableRequests

/-!
# What a cancel leaves behind

From the moment a session is known, a cancel ends with its `DELETE`.
-/
namespace Label309
open Traced

section Requests
variable {σ : Type} (bodies : UploadBodies) (config : NamespaceConfig σ)

/-- The answer to the request created a session. -/
def CreatesSession (sid : String) (e : Exchange) : Prop :=
  e.method = .post ∧ e.url = sessionsUrl config ∧ ∃ response created,
    e.answer = .ok response ∧ isSuccess response.status = true ∧ response.status ≠ 200 ∧
      bodies.created response.body = .ok created ∧ created.sessionId = sid

def DeletesSession (sid : String) (e : Exchange) : Prop :=
  e.method = .delete ∧ e.url = sessionUrl config sid

/-- The answer says that the session does not exist any more. -/
def AnsweredGone (e : Exchange) : Prop :=
  ∃ response, e.answer = .ok response ∧
    (isSuccess response.status = true ∨ response.status = 404 ∨ response.status = 410)

/-- The call was given the session, or created it. -/
def KnownSession (input : ResumableUploadInput σ) (log : List Exchange) (sid : String) : Prop :=
  input.resumeSessionId = some sid ∨ ∃ e ∈ log, CreatesSession bodies config sid e

/-- A cancelled upload deleted the session it knew, or says that it could not. -/
structure CancelSafe (input : ResumableUploadInput σ)
    (outcome : Except ResumableUploadError ResumableUploadResult) (log : List Exchange) : Prop where
  deleted : outcome = .error .cancelled → ∀ sid, KnownSession bodies config input log sid →
    ∃ e ∈ log, DeletesSession config sid e ∧ AnsweredGone e
  reported : ∀ sid, KnownSession bodies config input log sid → ∀ e ∈ log,
    DeletesSession config sid e → ¬ AnsweredGone e →
      ∃ source, outcome = .error (.abandonFailed sid source)

end Requests

section Steps
variable {σ : Type} {json : JsonPrimitives} {bodies : UploadBodies} {sha256 : List UInt8 → Digest}
  {host : UploadHost σ} {config : NamespaceConfig σ} {input : ResumableUploadInput σ}

/-! ## Steps that are never cancelled -/

theorem throws_viaHttp {α : Type} (m : Program (World σ Exchange) ClientError α) :
    Throws (· ≠ .cancelled) (viaHttp m) := by
  intro w e w' hrun
  obtain ⟨out, -, heq⟩ := Option.map_eq_some_iff.mp
    (show (exec m w).map (fun out => (out.1.mapError .http, out.2)) = some (.error e, w') from hrun)
  obtain ⟨first, w1⟩ := out
  cases first with
  | ok a => cases heq
  | error e' =>
      cases heq
      exact ResumableUploadError.noConfusion

theorem throws_parseBody {α : Type} (decoder : List UInt8 → Except String α) (body : List UInt8) :
    Throws (· ≠ .cancelled) (parseBody (σ := σ) decoder body) := by
  unfold parseBody
  cases decoder body with
  | ok value => exact Throws.pure value
  | error e => exact Throws.throw ResumableUploadError.noConfusion

theorem throws_getStatus (sid : String) :
    Throws (· ≠ .cancelled) (getStatus json bodies config sid) :=
  Throws.bind (throws_viaHttp _) fun _ => throws_parseBody _ _

/-! ## A known session -/

/-- Quiet requests, and a last `DELETE` of the session where the outcome is a cancel. -/
def Settled {α : Type} (config : NamespaceConfig σ) (sid : String) (new : List Exchange)
    (outcome : Except ResumableUploadError α) : Prop :=
  ((∀ e ∈ new, Quiet config e) ∧ outcome ≠ .error .cancelled) ∨
    ∃ front last, new = front ++ [last] ∧ (∀ e ∈ front, Quiet config e) ∧
      DeletesSession config sid last ∧
      (AnsweredGone last ∧ outcome = .error .cancelled ∨
        ¬ AnsweredGone last ∧ ∃ source, outcome = .error (.abandonFailed sid source))

/-- Every run of the program leaves the session settled. -/
def Settles {α : Type} (config : NamespaceConfig σ) (sid : String) (m : Upload σ α) : Prop :=
  ∀ w r w', exec m w = some (r, w') → ∃ new, w'.log = w.log ++ new ∧ Settled config sid new r

theorem Settles.of_quietly {α : Type} {sid : String} {m : Upload σ α} (hquiet : Quietly config m)
    (hthrows : Throws (· ≠ .cancelled) m) : Settles config sid m := by
  intro w r w' hrun
  obtain ⟨new, hlog, hnew⟩ := hquiet w r w' hrun
  refine ⟨new, hlog, .inl ⟨hnew, ?_⟩⟩
  intro hr
  rw [hr] at hrun
  exact hthrows w _ w' hrun rfl

/-- An outcome that is an error is the same error of what follows. -/
theorem Settled.error {α β : Type} {sid : String} {new : List Exchange} {e : ResumableUploadError}
    (h : Settled config sid new (.error e : Except ResumableUploadError α)) :
    Settled config sid new (.error e : Except ResumableUploadError β) := by
  rcases h with ⟨hquiet, hne⟩ | ⟨front, last, hsplit, hquiet, hdel, hout⟩
  · refine .inl ⟨hquiet, ?_⟩
    intro heq
    cases heq
    exact hne rfl
  · refine .inr ⟨front, last, hsplit, hquiet, hdel, ?_⟩
    rcases hout with ⟨hgone, heq⟩ | ⟨hkept, source, heq⟩
    · cases heq
      exact .inl ⟨hgone, rfl⟩
    · cases heq
      exact .inr ⟨hkept, source, rfl⟩

/-- Before a step that is not cancelled there is no `DELETE`. -/
theorem Settled.quiet {α : Type} {sid : String} {new : List Exchange} {a : α}
    (h : Settled config sid new (.ok a)) : ∀ e ∈ new, Quiet config e := by
  rcases h with ⟨hquiet, -⟩ | ⟨front, last, -, -, -, ⟨-, heq⟩ | ⟨-, source, heq⟩⟩
  · exact hquiet
  · cases heq
  · cases heq

theorem Settled.append {α : Type} {sid : String} {front new : List Exchange}
    {outcome : Except ResumableUploadError α} (hfront : ∀ e ∈ front, Quiet config e)
    (h : Settled config sid new outcome) : Settled config sid (front ++ new) outcome := by
  rcases h with ⟨hquiet, hne⟩ | ⟨quiet, last, hsplit, hquiet, hdel, hout⟩
  · exact .inl ⟨List.forall_mem_append.mpr ⟨hfront, hquiet⟩, hne⟩
  · refine .inr ⟨front ++ quiet, last, by rw [hsplit, List.append_assoc], ?_, hdel, hout⟩
    exact List.forall_mem_append.mpr ⟨hfront, hquiet⟩

theorem Settles.bind {α β : Type} {sid : String} {m : Upload σ α} {f : α → Upload σ β}
    (hm : Settles config sid m) (hf : ∀ a, Settles config sid (f a)) :
    Settles config sid (m >>= f) := by
  intro w r w' hrun
  rcases exec_bind_cases hrun with ⟨e, hfirst, hr⟩ | ⟨a, w1, hfirst, hrest⟩
  · obtain ⟨new, hlog, hnew⟩ := hm w _ w' hfirst
    rw [hr]
    exact ⟨new, hlog, hnew.error⟩
  · obtain ⟨new, hlog, hnew⟩ := hm w _ w1 hfirst
    obtain ⟨rest, hlog', hrest'⟩ := hf a w1 r w' hrest
    exact ⟨new ++ rest, by rw [hlog', hlog, List.append_assoc], hrest'.append hnew.quiet⟩

/-- One `DELETE`, and success when the session is gone. -/
theorem exec_abandonSession {sid : String} {w w' : World σ Exchange} {r : Except ClientError Unit}
    (hrun : exec (abandonSession json config sid) w = some (r, w')) :
    ∃ e, w'.log = w.log ++ [e] ∧ DeletesSession config sid e ∧
      (AnsweredGone e ∧ r = .ok () ∨ ¬ AnsweredGone e ∧ ∃ source, r = .error source) := by
  rcases exec_bind_cases hrun with ⟨e, hsend, hr⟩ | ⟨response, w1, hsend, hrest⟩
  · obtain ⟨answer, hanswer, hlog⟩ := exec_sendRaw hsend
    refine ⟨_, hlog, ⟨rfl, rfl⟩, .inr ⟨?_, e, hr⟩⟩
    intro hgone
    obtain ⟨response, hok, -⟩ := hgone
    dsimp only at hok
    rw [hok] at hanswer
    cases hanswer
  · obtain ⟨answer, hanswer, hlog⟩ := exec_sendRaw hsend
    have hok : answer = .ok response := by
      cases answer with
      | ok response' =>
          cases hanswer
          rfl
      | error e => cases hanswer
    have hworld : w' = w1 ∧ ((isSuccess response.status = true ∨ response.status = 404 ∨
        response.status = 410) ∧ r = .ok () ∨ ¬ (isSuccess response.status = true ∨
          response.status = 404 ∨ response.status = 410) ∧ ∃ source, r = .error source) := by
      by_cases hgone : response.status = 404 ∨ response.status = 410
      · rw [if_pos hgone, exec_pure, Option.some.injEq, Prod.mk.injEq] at hrest
        exact ⟨hrest.2.symm, .inl ⟨.inr hgone, hrest.1.symm⟩⟩
      · rw [if_neg hgone] at hrest
        rcases @throwIfNotOk_cases json response with ⟨hsuccess, heq⟩ | ⟨hfail, heq⟩
        · rw [heq] at hrest
          cases hrest
          exact ⟨rfl, .inl ⟨.inl hsuccess, rfl⟩⟩
        · rw [heq] at hrest
          cases hrest
          exact ⟨rfl, .inr ⟨fun h => h.elim hfail hgone, _, rfl⟩⟩
    obtain ⟨hw, hout⟩ := hworld
    refine ⟨_, by rw [hw, hlog], ⟨rfl, rfl⟩, ?_⟩
    rcases hout with ⟨hgone, hr⟩ | ⟨hkept, herr⟩
    · exact .inl ⟨⟨response, hok, hgone⟩, hr⟩
    · refine .inr ⟨?_, herr⟩
      intro hgone
      obtain ⟨response', hok', hgone'⟩ := hgone
      have heq : response' = response := Except.ok.inj (hok'.symm.trans hok)
      exact hkept (heq ▸ hgone')

/-- A cancelled step is followed by the `DELETE` of the session. -/
theorem Settles.orAbandon {α : Type} {sid : String} {m : Upload σ α} (hm : Quietly config m) :
    Settles config sid (orAbandon json config sid m) := by
  intro w r w' hrun
  obtain ⟨first, w1, hfirst, hend⟩ := exec_orAbandon hrun
  obtain ⟨new, hlog, hnew⟩ := hm w first w1 hfirst
  rcases hend with ⟨hcancel, hr, hw⟩ | ⟨-, gone, habandon, hr⟩
  · rw [hr, hw]
    exact ⟨new, hlog, .inl ⟨hnew, hcancel⟩⟩
  obtain ⟨e, hlog', hdel, hout⟩ := exec_abandonSession habandon
  refine ⟨new ++ [e], by rw [hlog', hlog, List.append_assoc], .inr ⟨new, e, rfl, hnew, hdel, ?_⟩⟩
  rcases hout with ⟨hgone, hok⟩ | ⟨hkept, source, herror⟩
  · rcases hr with ⟨-, hr⟩ | ⟨source, herror, -⟩
    · exact .inl ⟨hgone, hr⟩
    · cases hok.symm.trans herror
  · rcases hr with ⟨hok, -⟩ | ⟨source', herror', hr⟩
    · cases herror.symm.trans hok
    · exact .inr ⟨hkept, source', hr⟩

theorem settles_driveSession (fuel : ℕ) (session : SessionGrid) :
    Settles config session.sessionId
      (driveSession json bodies sha256 host config input fuel session) := by
  apply Settles.bind (Settles.orAbandon (quietly_sendMissingChunks _ _ _))
  intro bytesAcked
  exact Settles.orAbandon (quietly_completeSession _ _ _)

/-! ## The session a call knows -/

theorem not_createsSession_of_quiet {e : Exchange} (hquiet : Quiet config e) (sid : String) :
    ¬ CreatesSession bodies config sid e := by
  intro hcreates
  exact hquiet.2.1 hcreates.1 hcreates.2.1

theorem not_createsSession_of_settled {α : Type} {sid : String} {new : List Exchange}
    {outcome : Except ResumableUploadError α} (h : Settled config sid new outcome) :
    ∀ e ∈ new, ∀ sid', ¬ CreatesSession bodies config sid' e := by
  intro e he sid' hcreates
  rcases h with ⟨hquiet, -⟩ | ⟨front, last, hsplit, hquiet, hdel, -⟩
  · exact not_createsSession_of_quiet (hquiet e he) sid' hcreates
  · rw [hsplit] at he
    rcases List.mem_append.mp he with he | he
    · exact not_createsSession_of_quiet (hquiet e he) sid' hcreates
    · rw [List.mem_singleton.mp he] at hcreates
      exact HttpMethod.noConfusion (hdel.1.symm.trans hcreates.1)

theorem cancelSafe_of_unknown {log : List Exchange}
    {outcome : Except ResumableUploadError ResumableUploadResult}
    (h : ∀ sid, ¬ KnownSession bodies config input log sid) :
    CancelSafe bodies config input outcome log :=
  ⟨fun _ sid hknown => absurd hknown (h sid), fun sid hknown => absurd hknown (h sid)⟩

/-- The only session that is known is settled after requests that delete nothing. -/
theorem cancelSafe_of_settled {sid : String} {front new : List Exchange}
    {outcome : Except ResumableUploadError ResumableUploadResult}
    (hfront : ∀ e ∈ front, e.method ≠ .delete) (hsettled : Settled config sid new outcome)
    (hknown : ∀ sid', KnownSession bodies config input (front ++ new) sid' → sid' = sid) :
    CancelSafe bodies config input outcome (front ++ new) := by
  constructor
  · intro hcancel sid' hsid'
    rw [hknown sid' hsid']
    rcases hsettled with ⟨-, hne⟩ | ⟨quiet, last, hsplit, -, hdel, hout⟩
    · exact absurd hcancel hne
    · rcases hout with ⟨hgone, -⟩ | ⟨-, source, hr⟩
      · exact ⟨last, by simp [hsplit], hdel, hgone⟩
      · rw [hcancel] at hr
        cases hr
  · intro sid' hsid' e he hdelete hkept
    rw [hknown sid' hsid']
    have hnew : e ∈ new := by
      rcases List.mem_append.mp he with he | he
      · exact absurd hdelete.1 (hfront e he)
      · exact he
    rcases hsettled with ⟨hquiet, -⟩ | ⟨quiet, last, hsplit, hquiet, -, hout⟩
    · exact absurd hdelete.1 (hquiet e hnew).1
    · rw [hsplit] at hnew
      rcases List.mem_append.mp hnew with hmem | hmem
      · exact absurd hdelete.1 (hquiet e hmem).1
      · rcases hout with ⟨hgone, -⟩ | ⟨-, herr⟩
        · rw [List.mem_singleton.mp hmem] at hkept
          exact absurd hgone hkept
        · exact herr

/-! ## A session that is created -/

/-- What is made of the answer to a create request. -/
theorem exec_createAnswer {response : ClientResponse} {w w' : World σ Exchange}
    {r : Except ResumableUploadError CreateOutcome}
    (hrun : exec (do
      if response.status = 402 then throw (.insufficientFunds (parseHttpError json response))
      match throwIfNotOk json response with
      | .error e => throw (.http e)
      | .ok response =>
          if response.status = 200 then do
            let dedup ← parseBody bodies.deduplicated response.body
            pure (.deduplicated dedup)
          else do
            let created ← parseBody bodies.created response.body
            pure (.created created) : Upload σ CreateOutcome) w = some (r, w')) :
    w' = w ∧ ∀ created, isSuccess response.status = true → response.status ≠ 200 →
      bodies.created response.body = .ok created → r = .ok (.created created) := by
  by_cases hfunds : response.status = 402
  · rw [if_pos hfunds] at hrun
    cases hrun
    refine ⟨rfl, ?_⟩
    intro created hsuccess
    rw [hfunds] at hsuccess
    cases hsuccess
  rw [if_neg hfunds] at hrun
  rcases @throwIfNotOk_cases json response with ⟨-, heq⟩ | ⟨hfail, heq⟩
  · rw [heq] at hrun
    dsimp only at hrun
    by_cases hdedup : response.status = 200
    · rw [if_pos hdedup] at hrun
      refine ⟨?_, fun created _ hne => absurd hdedup hne⟩
      unfold parseBody at hrun
      cases hbody : bodies.deduplicated response.body with
      | ok dedup =>
          rw [hbody] at hrun
          cases hrun
          rfl
      | error message =>
          rw [hbody] at hrun
          cases hrun
          rfl
    · rw [if_neg hdedup] at hrun
      unfold parseBody at hrun
      cases hbody : bodies.created response.body with
      | ok found =>
          rw [hbody] at hrun
          cases hrun
          refine ⟨rfl, ?_⟩
          intro created _ _ hcreated
          cases hcreated
          rfl
      | error message =>
          rw [hbody] at hrun
          cases hrun
          refine ⟨rfl, ?_⟩
          intro created _ _ hcreated
          cases hcreated
  · rw [heq] at hrun
    cases hrun
    exact ⟨rfl, fun created hsuccess => absurd hsuccess hfail⟩

/-- One request. Where it creates a session, the outcome is that session. -/
theorem exec_createSession {wholeSha256 : Digest} {totalBytes chunkRequest : UInt64}
    {w w' : World σ Exchange} {r : Except ResumableUploadError CreateOutcome}
    (hrun : exec (createSession json bodies config input wholeSha256 totalBytes chunkRequest) w =
      some (r, w')) :
    ∃ e, w'.log = w.log ++ [e] ∧ e.method = .post ∧
      ∀ sid, CreatesSession bodies config sid e →
        ∃ created, r = .ok (.created created) ∧ created.sessionId = sid := by
  rcases exec_bind_cases hrun with ⟨err, hsend, hr⟩ | ⟨response, w1, hsend, hrest⟩
  · obtain ⟨first, hfirst, hmap⟩ := exec_mapError_eq_some hsend
    obtain ⟨answer, hanswer, hlog⟩ := exec_sendRaw hfirst
    refine ⟨_, hlog, rfl, ?_⟩
    intro sid hcreates
    obtain ⟨-, -, response, created, hok, -⟩ := hcreates
    dsimp only at hok
    rw [hanswer, hok] at hmap
    cases hmap
  · obtain ⟨first, hfirst, hmap⟩ := exec_mapError_eq_some hsend
    obtain ⟨answer, hanswer, hlog⟩ := exec_sendRaw hfirst
    obtain ⟨hw, hcreated⟩ := exec_createAnswer hrest
    refine ⟨_, by rw [hw]; exact hlog, rfl, ?_⟩
    intro sid hcreates
    obtain ⟨-, -, response', created, hok, hsuccess, hne, hbody, hsid⟩ := hcreates
    dsimp only at hok
    rw [hanswer, hok] at hmap
    cases hmap
    exact ⟨created, hcreated created hsuccess hne hbody, hsid⟩

theorem Quietly.log {E α : Type} {m : Program (World σ Exchange) E α} (hm : Quietly config m)
    {w w' : World σ Exchange} {r : Except E α} (hrun : exec m w = some (r, w'))
    (hlog : ∀ e ∈ w.log, Quiet config e) : ∀ e ∈ w'.log, Quiet config e := by
  obtain ⟨new, heq, hnew⟩ := hm w r w' hrun
  rw [heq]
  exact List.forall_mem_append.mpr ⟨hlog, hnew⟩

theorem cancelSafe_of_quiet {log : List Exchange}
    {outcome : Except ResumableUploadError ResumableUploadResult}
    (hresume : input.resumeSessionId = none) (hlog : ∀ e ∈ log, Quiet config e) :
    CancelSafe bodies config input outcome log := by
  apply cancelSafe_of_unknown
  intro sid hknown
  rcases hknown with hgiven | ⟨e, he, hcreates⟩
  · rw [hresume] at hgiven
    cases hgiven
  · exact not_createsSession_of_quiet (hlog e he) sid hcreates

/-- From the create request on, where nothing was known before. -/
theorem cancelSafe_of_created {w w1 w' : World σ Exchange}
    {outcome : Except ResumableUploadError ResumableUploadResult}
    {first : Except ResumableUploadError CreateOutcome} {wholeSha256 : Digest}
    {totalBytes chunkRequest : UInt64} (hresume : input.resumeSessionId = none)
    (hlog : ∀ e ∈ w.log, Quiet config e)
    (hcreate : exec (createSession json bodies config input wholeSha256 totalBytes chunkRequest) w =
      some (first, w1))
    (hnone : (∀ created, first ≠ .ok (.created created)) → w'.log = w1.log)
    (hsession : ∀ created, first = .ok (.created created) →
      ∃ new, w'.log = w1.log ++ new ∧ Settled config created.sessionId new outcome) :
    CancelSafe bodies config input outcome w'.log := by
  obtain ⟨request, hlog1, hpost, hcreates⟩ := exec_createSession hcreate
  have hfront : ∀ e ∈ w1.log, e.method ≠ .delete := by
    intro e he
    rw [hlog1] at he
    rcases List.mem_append.mp he with he | he
    · exact (hlog e he).1
    · rw [List.mem_singleton.mp he, hpost]
      exact HttpMethod.noConfusion
  have hfirst : ∀ sid, ∀ e ∈ w1.log, CreatesSession bodies config sid e →
      ∃ created, first = .ok (.created created) ∧ created.sessionId = sid := by
    intro sid e he hcreated
    rw [hlog1] at he
    rcases List.mem_append.mp he with he | he
    · exact absurd hcreated (not_createsSession_of_quiet (hlog e he) sid)
    · rw [List.mem_singleton.mp he] at hcreated
      exact hcreates sid hcreated
  by_cases hfound : ∃ created, first = .ok (.created created)
  · obtain ⟨created, heq⟩ := hfound
    obtain ⟨new, hlog', hsettled⟩ := hsession created heq
    rw [hlog']
    apply cancelSafe_of_settled hfront hsettled
    intro sid hknown
    rcases hknown with hgiven | ⟨e, he, hcreated⟩
    · rw [hresume] at hgiven
      cases hgiven
    · rcases List.mem_append.mp he with he | he
      · obtain ⟨created', heq', hsid⟩ := hfirst sid e he hcreated
        rw [heq] at heq'
        cases heq'
        exact hsid.symm
      · exact absurd hcreated (not_createsSession_of_settled hsettled e he sid)
  · have hsame : w'.log = w1.log := hnone fun created heq => hfound ⟨created, heq⟩
    rw [hsame]
    apply cancelSafe_of_unknown
    intro sid hknown
    rcases hknown with hgiven | ⟨e, he, hcreated⟩
    · rw [hresume] at hgiven
      cases hgiven
    · obtain ⟨created, heq, -⟩ := hfirst sid e he hcreated
      exact hfound ⟨created, heq⟩

theorem cancelSafe_freshSession {fuel : ℕ} {s : σ} {w' : World σ Exchange}
    {outcome : Except ResumableUploadError ResumableUploadResult}
    (hresume : input.resumeSessionId = none)
    (hrun : exec (freshSession json bodies sha256 host config input fuel) ⟨s, []⟩ =
      some (outcome, w')) :
    CancelSafe bodies config input outcome w'.log := by
  have hstart : ∀ e ∈ ((⟨s, []⟩ : World σ Exchange)).log, Quiet config e := List.forall_mem_nil _
  rcases exec_bind_cases hrun with ⟨e, hpoll, -⟩ | ⟨cancelled, w1, hpoll, hrun⟩
  · exact cancelSafe_of_quiet hresume (quietly_isCancelled.log hpoll hstart)
  have hlog1 := quietly_isCancelled.log hpoll hstart
  by_cases hcancelled : cancelled = true
  · rw [if_pos hcancelled] at hrun
    cases hrun
    exact cancelSafe_of_quiet hresume hlog1
  rw [if_neg hcancelled] at hrun
  rcases exec_bind_cases hrun with ⟨e, hlen, -⟩ | ⟨totalBytes, w2, hlen, hrun⟩
  · exact cancelSafe_of_quiet hresume ((quietly_sourceLen _).log hlen hlog1)
  have hlog2 := (quietly_sourceLen _).log hlen hlog1
  rcases exec_bind_cases hrun with ⟨e, hhash, -⟩ | ⟨wholeSha256, w3, hhash, hrun⟩
  · exact cancelSafe_of_quiet hresume ((quietly_streamSha256 _).log hhash hlog2)
  have hlog3 := (quietly_streamSha256 _).log hhash hlog2
  rcases exec_bind_cases hrun with ⟨e, hcreate, -⟩ | ⟨answer, w4, hcreate, hrun⟩
  · exact cancelSafe_of_created hresume hlog3 hcreate (fun _ => rfl) nofun
  cases answer with
  | deduplicated dedup =>
      cases hrun
      exact cancelSafe_of_created hresume hlog3 hcreate (fun _ => rfl) nofun
  | created created =>
      apply cancelSafe_of_created hresume hlog3 hcreate (fun hne => absurd rfl (hne created))
      intro created' heq
      cases heq
      dsimp only at hrun
      cases hcallback : input.onSessionCreated with
      | none =>
          rw [hcallback] at hrun
          have hdrive := settles_driveSession _ _ w4 _ w' hrun
          exact hdrive
      | some cb =>
          rw [hcallback] at hrun
          rcases exec_bind_cases hrun with ⟨e, hfirst, -⟩ | ⟨_, w5, hfirst, hrun⟩
          · cases hfirst
          obtain ⟨new, hlog5, hsettled⟩ := settles_driveSession _ _ w5 _ w' hrun
          have hsame : w5.log = w4.log := by
            cases hfirst
            rfl
          exact ⟨new, by rw [hlog5, hsame], hsettled⟩

/-! ## A session that is resumed -/

/-- The first poll of the cancel predicate asks to stop. -/
def CancelledAt (input : ResumableUploadInput σ) (s : σ) : Prop :=
  ∃ poll, input.cancel = some poll ∧ (poll s).1 = true

/-- The first answer, where it is a session status, is of the session that is resumed. -/
def FirstStatusNames (bodies : UploadBodies) (sid : String) (log : List Exchange) : Prop :=
  ∀ e ∈ log.head?, ∀ response, e.answer = .ok response → isSuccess response.status = true →
    ∀ status, bodies.status response.body = .ok status → status.sessionId = sid

theorem exec_isCancelled {w w' : World σ Exchange} {r : Except ResumableUploadError Bool}
    (hrun : exec (isCancelled input) w = some (r, w')) :
    ∃ b, r = .ok b ∧ w'.log = w.log ∧ (b = true ↔ CancelledAt input w.host) := by
  unfold isCancelled at hrun
  unfold CancelledAt
  cases hcancel : input.cancel with
  | none =>
      rw [hcancel] at hrun
      cases hrun
      exact ⟨false, rfl, rfl, by simp⟩
  | some poll =>
      rw [hcancel] at hrun
      cases hrun
      exact ⟨(poll w.host).1, rfl, rfl, by simp⟩

theorem parseBody_eq_ok {α : Type} {decoder : List UInt8 → Except String α} {body : List UInt8}
    {a : α} {w w' : World σ Exchange}
    (hrun : exec (parseBody decoder body) w = some (.ok a, w')) :
    decoder body = .ok a ∧ w' = w := by
  rw [exec_parseBody] at hrun
  cases hbody : decoder body with
  | ok value =>
      rw [hbody] at hrun
      cases hrun
      exact ⟨rfl, rfl⟩
  | error message =>
      rw [hbody] at hrun
      cases hrun

/-- One request, whose answer is a success. -/
theorem exec_send {url : String} {method : HttpMethod} {headers : List (String × String)}
    {body : RequestBody} {w w' : World σ Exchange} {response : ClientResponse}
    (hrun : exec (send config json url method headers body) w = some (.ok response, w')) :
    ∃ e, w'.log = w.log ++ [e] ∧ e.method = method ∧ e.url = url ∧ e.answer = .ok response ∧
      isSuccess response.status = true := by
  rcases exec_bind_cases hrun with ⟨e, -, hr⟩ | ⟨response', w1, hraw, hrest⟩
  · cases hr
  obtain ⟨answer, hanswer, hlog⟩ := exec_sendRaw hraw
  rcases @throwIfNotOk_cases json response' with ⟨hsuccess, heq⟩ | ⟨-, heq⟩
  · rw [heq] at hrest
    cases hrest
    cases answer with
    | error e => cases hanswer
    | ok response'' =>
        cases hanswer
        exact ⟨_, hlog, rfl, rfl, rfl, hsuccess⟩
  · rw [heq] at hrest
    cases hrest

/-- A status is the answer to one request. -/
theorem exec_getStatus {sid : String} {w w' : World σ Exchange} {status : UploadSessionStatus}
    (hrun : exec (getStatus json bodies config sid) w = some (.ok status, w')) :
    ∃ e response, w'.log = w.log ++ [e] ∧ Quiet config e ∧ e.answer = .ok response ∧
      isSuccess response.status = true ∧ bodies.status response.body = .ok status := by
  rcases exec_bind_cases hrun with ⟨e, -, hr⟩ | ⟨response, w1, hsend, hparse⟩
  · cases hr
  obtain ⟨hbody, hw⟩ := parseBody_eq_ok hparse
  obtain ⟨first, hfirst, hmap⟩ := exec_mapError_eq_some hsend
  cases first with
  | error e => cases hmap
  | ok response' =>
      cases hmap
      obtain ⟨e, hlog, hmethod, hurl, hanswer, hsuccess⟩ := exec_send hfirst
      refine ⟨e, response, by rw [hw, hlog], ?_, hanswer, hsuccess, hbody⟩
      rw [Quiet, hmethod, hurl]
      exact ⟨HttpMethod.noConfusion, nofun, under_sessionUrl sid⟩

theorem cancelSafe_of_resumed {sid : String} {log : List Exchange}
    {outcome : Except ResumableUploadError ResumableUploadResult}
    (hresume : input.resumeSessionId = some sid) (hsettled : Settled config sid log outcome) :
    CancelSafe bodies config input outcome log := by
  refine show CancelSafe bodies config input outcome ([] ++ log) from
    cancelSafe_of_settled (List.forall_mem_nil _) hsettled ?_
  intro sid' hknown
  rcases hknown with hgiven | ⟨e, he, hcreates⟩
  · exact Option.some.inj (hgiven.symm.trans hresume)
  · exact absurd hcreates (not_createsSession_of_settled hsettled e he sid')

theorem cancelSafe_resumeSession {fuel : ℕ} {sid : String} {s : σ} {w' : World σ Exchange}
    {outcome : Except ResumableUploadError ResumableUploadResult}
    (hresume : input.resumeSessionId = some sid) (hpoll : ¬ CancelledAt input s)
    (hrun : exec (resumeSession json bodies sha256 host config input fuel sid) ⟨s, []⟩ =
      some (outcome, w'))
    (hnames : FirstStatusNames bodies sid w'.log) :
    CancelSafe bodies config input outcome w'.log := by
  apply cancelSafe_of_resumed hresume
  rcases exec_bind_cases hrun with ⟨e, hfirst, -⟩ | ⟨b, w1, hfirst, hrest⟩
  · obtain ⟨b, hb, -⟩ := exec_isCancelled hfirst
    cases hb
  obtain ⟨b', hb, hlog1, hiff⟩ := exec_isCancelled hfirst
  cases hb
  rw [if_neg (fun h => hpoll (hiff.mp h))] at hrest
  rcases exec_bind_cases hrest with ⟨e, hstatus, hr⟩ | ⟨status, w2, hstatus, hrest⟩
  · have hsettles : Settles config sid (getStatus json bodies config sid) :=
      Settles.of_quietly (quietly_getStatus sid) (throws_getStatus sid)
    obtain ⟨new, hlog, hnew⟩ := hsettles w1 _ w' hstatus
    rw [hlog, hlog1, hr]
    exact hnew.error
  obtain ⟨e, response, hlog2, hquiet, hanswer, hsuccess, hbody⟩ := exec_getStatus hstatus
  have hfront : ∀ e' ∈ [e], Quiet config e' := by
    intro e' he'
    rwa [List.mem_singleton.mp he']
  have hterminal : Settles config sid (orAbandon json config sid
      (terminalFromStatus json bodies host config input fuel status)) :=
    Settles.orAbandon (quietly_terminalFromStatus fuel status)
  rcases exec_bind_cases hrest with ⟨err, hdone, hr⟩ | ⟨done, w3, hdone, hrest⟩
  · obtain ⟨new, hlog, hnew⟩ := hterminal w2 _ w' hdone
    rw [hlog, hlog2, hlog1, hr]
    exact hnew.error.append hfront
  obtain ⟨new, hlog3, hnew⟩ := hterminal w2 _ w3 hdone
  cases done with
  | some done =>
      cases hrest
      rw [hlog3, hlog2, hlog1]
      exact .inl ⟨List.forall_mem_append.mpr ⟨hfront, hnew.quiet⟩, nofun⟩
  | none =>
      obtain ⟨rest, hlog', hsettled⟩ := settles_driveSession _ _ w3 _ w' hrest
      have hall : w'.log = [e] ++ (new ++ rest) := by
        rw [hlog', hlog3, hlog2, hlog1]
        simp
      have hsame : status.sessionId = sid :=
        hnames e (by rw [hall]; rfl) response hanswer hsuccess status hbody
      rw [hall]
      rw [hsame] at hsettled
      exact (hsettled.append hnew.quiet).append hfront

theorem not_cancelSafe_resumeSession {fuel : ℕ} {sid : String} {s : σ} {w' : World σ Exchange}
    {outcome : Except ResumableUploadError ResumableUploadResult}
    (hresume : input.resumeSessionId = some sid) (hpoll : CancelledAt input s)
    (hrun : exec (resumeSession json bodies sha256 host config input fuel sid) ⟨s, []⟩ =
      some (outcome, w')) :
    ¬ CancelSafe bodies config input outcome w'.log := by
  intro hsafe
  rcases exec_bind_cases hrun with ⟨e, hfirst, -⟩ | ⟨b, w1, hfirst, hrest⟩
  · obtain ⟨b, hb, -⟩ := exec_isCancelled hfirst
    cases hb
  · obtain ⟨b', hb, hlog, hiff⟩ := exec_isCancelled hfirst
    cases hb
    rw [if_pos (hiff.mpr hpoll)] at hrest
    cases hrest
    obtain ⟨e, he, -⟩ := hsafe.deleted rfl sid (.inl hresume)
    rw [hlog] at he
    cases he

/-- A cancel leaks no session, unless it comes with the very first poll of an upload that resumes
one. The gateway answers the status of the session it is asked about. -/
theorem chunked_cancelSafe {fuel : ℕ} {s : σ} {w' : World σ Exchange}
    {outcome : Except ResumableUploadError ResumableUploadResult}
    (hrun : exec (chunked json bodies sha256 host config input fuel) ⟨s, []⟩ =
      some (outcome, w')) :
    ((∀ sid, input.resumeSessionId = some sid →
        ¬ CancelledAt input s ∧ FirstStatusNames bodies sid w'.log) →
      CancelSafe bodies config input outcome w'.log) ∧
    (∀ sid, input.resumeSessionId = some sid → CancelledAt input s →
      ¬ CancelSafe bodies config input outcome w'.log) := by
  unfold chunked at hrun
  cases hresume : input.resumeSessionId with
  | none =>
      rw [hresume] at hrun
      refine ⟨fun _ => cancelSafe_freshSession hresume hrun, ?_⟩
      intro sid hsid
      cases hsid
  | some sid =>
      rw [hresume] at hrun
      constructor
      · intro hcond
        obtain ⟨hpoll, hnames⟩ := hcond sid rfl
        exact cancelSafe_resumeSession hresume hpoll hrun hnames
      · intro sid' hsid hpoll
        exact not_cancelSafe_resumeSession hresume hpoll hrun

end Steps

/-! ## A cancel of a resumed upload -/

def openStatusBody : List UInt8 :=
  utf8Bytes ("\x7b\"session_id\":\"s-1\",\"state\":\"open\",\"sha256\":\"aa\",\"total_bytes\":3," ++
    "\"chunk_bytes\":2,\"chunk_count\":2,\"missing\":[1],\"expires_at\":\"2026-01-01\"\x7d")

def openStatus : UploadSessionStatus where
  sessionId := "s-1"
  state := "open"
  sha256 := "aa"
  totalBytes := 3
  chunkBytes := 2
  chunkCount := 2
  missing := [1]
  attemptId := none
  uri := none

/-- Reads the one body that the gateway below sends. -/
def sampleBodies : UploadBodies where
  uploads := fun _ => .error "missing field"
  created := fun _ => .error "missing field"
  deduplicated := fun _ => .error "missing field"
  status := fun body => if body = openStatusBody then .ok openStatus else .error "missing field"
  chunkAck := fun _ => .error "missing field"
  attempt := fun _ => .error "missing field"

def sampleJson : JsonPrimitives where
  fromSlice := fun _ => .error "expected value"
  toText := fun _ => "\x7b\x7d"

/-- The clock of the host counts the polls of the caller. -/
def sampleHost : UploadHost ℕ where
  now := fun n => (n, n)
  sleep := fun _ n => n
  fileLen := fun _ n => (.error "No such file or directory", n)
  fileContents := fun _ n => (.error "No such file or directory", n)
  fileRead := fun _ _ _ n => (.error "No such file or directory", n)

/-- A gateway with one open session, which it deletes. -/
def sampleConfig : NamespaceConfig ℕ where
  apiKey := none
  baseUrl := "https://gateway.example"
  transport := fun _ method _ _ n =>
    match method with
    | .get => (.ok ⟨200, openStatusBody, none, none⟩, n)
    | .delete => (.ok ⟨204, [], none, none⟩, n)
    | _ => (.ok ⟨500, [], none, none⟩, n)

/-- Cancelled from the given poll on. -/
def cancelledFrom (first : ℕ) : ResumableUploadInput ℕ where
  target := "arweave"
  source := .bytes [1, 2, 3]
  contentType := none
  thresholdBytes := none
  chunkBytes := none
  resumeSessionId := some "s-1"
  idempotencyKey := none
  onProgress := none
  cancel := some fun n => (decide (first ≤ n), n + 1)
  onSessionCreated := none

/-- The requests of a cancel at the second poll. -/
def statusAndDelete : List Exchange :=
  [⟨"https://gateway.example/poe/uploads/sessions/s-1", .get, jsonHeaders none none, .none,
      .ok ⟨200, openStatusBody, none, none⟩⟩,
    ⟨"https://gateway.example/poe/uploads/sessions/s-1", .delete, jsonHeaders none none, .none,
      .ok ⟨204, [], none, none⟩⟩]

def sampleUpload (first : ℕ) : Upload ℕ ResumableUploadResult :=
  chunked sampleJson sampleBodies (fun _ => ⟨List.replicate 32 0, rfl⟩) sampleHost sampleConfig
    (cancelledFrom first) 1

set_option maxRecDepth 1000 in
theorem exec_sampleUpload_one :
    exec (sampleUpload 1) ⟨0, []⟩ = some (.error .cancelled, ⟨2, statusAndDelete⟩) := by
  rfl

/-- A cancel at the second poll deletes the session. -/
theorem cancelSafe_cancelledFrom_one :
    CancelSafe sampleBodies sampleConfig (cancelledFrom 1) (.error .cancelled) statusAndDelete := by
  apply (chunked_cancelSafe exec_sampleUpload_one).1
  intro sid hsid
  cases hsid
  constructor
  · intro hpoll
    obtain ⟨poll, hpoll, hnow⟩ := hpoll
    cases hpoll
    cases hnow
  · intro e he response hanswer hsuccess status hstatus
    cases he
    cases hanswer
    cases hstatus
    rfl

/-- A cancel at the first poll leaves the session that was to be resumed. -/
theorem not_cancelSafe_cancelledFrom_zero :
    exec (sampleUpload 0) ⟨0, []⟩ = some (.error .cancelled, ⟨1, []⟩) ∧
      ¬ CancelSafe sampleBodies sampleConfig (cancelledFrom 0) (.error .cancelled) [] := by
  refine ⟨rfl, ?_⟩
  intro hsafe
  obtain ⟨e, he, -⟩ := hsafe.deleted rfl "s-1" (.inl rfl)
  cases he

end Label309
