import Label309.Client.ResumableSteps
import Label309.Lib.Retry

/-!
# The attempts of a chunk

A chunk is put again after a server error. A failure of the transport leaves the loop at once, and
whether a response is retried is read off the status in its problem document.
-/
namespace Label309
open Traced Retry

/-- What the gateway answers to one attempt. -/
abbrev PutAnswer := Except OutboundError ClientResponse

/-- A client error that the same bytes would meet again. -/
def TerminalStatus (status : ℕ) : Prop :=
  400 ≤ status ∧ status < 500 ∧ status ≠ 408 ∧ status ≠ 429

instance (status : ℕ) : Decidable (TerminalStatus status) := by
  unfold TerminalStatus
  infer_instance

/-- An attempt that no other follows: a success or a terminal client error. -/
def FinalAnswer : PutAnswer → Prop
  | .ok response => isSuccess response.status = true ∨ TerminalStatus response.status
  | .error _ => False

instance (answer : PutAnswer) : Decidable (FinalAnswer answer) := by
  unfold FinalAnswer
  cases answer <;> infer_instance

section Loop
variable {σ : Type} (json : JsonPrimitives) (bodies : UploadBodies) (sha256 : List UInt8 → Digest)
  (config : NamespaceConfig σ) (input : ResumableUploadInput σ)

/-- The caller never asks to stop. -/
def NeverCancels : Prop := ∀ poll, input.cancel = some poll → ∀ s, (poll s).1 = false

/-- The host after the caller was asked whether to stop. -/
def polled (s : σ) : σ :=
  match input.cancel with
  | none => s
  | some poll => (poll s).2

/-- The result of an attempt that no other follows. -/
def putResult : PutAnswer → Except ResumableUploadError UploadSessionChunkAck
  | .error e => .error (.http (.outbound e))
  | .ok response =>
      match throwIfNotOk json response with
      | .ok response => (bodies.chunkAck response.body).mapError .decode
      | .error e => .error (.http e)

/-- The loop is left after this answer. -/
def leavesLoop : PutAnswer → Bool
  | .error _ => true
  | .ok response =>
      match throwIfNotOk json response with
      | .ok _ => true
      | .error e => isTerminalChunkError (.http e)

/-- A failure of the transport, or a response whose problem document names a status of another
kind than that of the response. -/
def Misread : PutAnswer → Prop
  | .error _ => True
  | .ok response => isSuccess response.status = false ∧
      ¬ (TerminalStatus (parseHttpError json response).problem.status ↔
        TerminalStatus response.status)

def chunkHeaders (chunk : List UInt8) : List (String × String) :=
  (jsonHeaders config.apiKey none).filter (fun h => h.1 != "content-type") ++
    [("content-length", toString chunk.length),
      ("digest", "sha-256=" ++ base64Standard (sha256 chunk).val)]

/-- The attempt that was answered so. -/
def putExchange (url : String) (chunk : List UInt8) (answer : PutAnswer) : Exchange :=
  ⟨url, .put, chunkHeaders sha256 config chunk, .bytes chunk, answer⟩

/-- The answers to so many attempts, whether or not they are all made. -/
def putAnswers (url : String) (chunk : List UInt8) : ℕ → σ → List PutAnswer
  | 0, _ => []
  | n + 1, s =>
      let out := config.transport url .put (chunkHeaders sha256 config chunk) (.bytes chunk)
        (polled input s)
      out.1 :: putAnswers url chunk n out.2

/-- **What is documented of the attempts**: one after another up to the first success or terminal
client error, or until the budget is spent, and the result is that of the last. -/
structure RetriesTransient (url : String) (chunk : List UInt8) (w : World σ Exchange)
    (r : Except ResumableUploadError UploadSessionChunkAck) (w' : World σ Exchange)
    (made : List PutAnswer) : Prop where
  requested : w'.log = w.log ++ made.map (putExchange sha256 config url chunk)
  inOrder : made <+: putAnswers sha256 config input url chunk chunkRetryAttempts w.host
  bounded : made.length ≤ chunkRetryAttempts
  transient : ∀ a ∈ made.dropLast, ¬ FinalAnswer a
  spent : (∃ a, made.getLast? = some a ∧ FinalAnswer a) ∨ made.length = chunkRetryAttempts
  result : ∃ a, made.getLast? = some a ∧ r = putResult json bodies a

end Loop

section Run
variable {σ : Type} {json : JsonPrimitives} {bodies : UploadBodies} {sha256 : List UInt8 → Digest}
  {config : NamespaceConfig σ} {input : ResumableUploadInput σ}

@[simp] theorem length_putAnswers (url : String) (chunk : List UInt8) (n : ℕ) (s : σ) :
    (putAnswers sha256 config input url chunk n s).length = n := by
  induction n generalizing s with
  | zero => rfl
  | succ n ih => rw [putAnswers, List.length_cons, ih]

theorem exec_isCancelled_of_never (h : NeverCancels input) (w : World σ Exchange) :
    exec (isCancelled input) w = some (.ok false, { w with host := polled input w.host }) := by
  rw [isCancelled, polled]
  cases hcancel : input.cancel with
  | none => rfl
  | some poll =>
      have hno := h poll hcancel w.host
      show some (Except.ok (poll w.host).1, _) = _
      rw [hno]

/-- The loop goes on exactly after an answer that it takes for transient. -/
theorem exec_putChunkAttempts (h : NeverCancels input) (url : String) (index : UInt32)
    (chunk : List UInt8) (n : ℕ) (last : Option ResumableUploadError) (w : World σ Exchange) :
    ∃ s, exec (putChunkAttempts json bodies sha256 config input url index chunk n last) w =
      some (((attempted (leavesLoop json · = true) n
          (putAnswers sha256 config input url chunk n w.host)).getLast?.map
            (putResult json bodies)).getD
            (.error (last.getD (.protocol s!"chunk {index} exhausted its retries"))),
        ⟨s, w.log ++ (attempted (leavesLoop json · = true) n
          (putAnswers sha256 config input url chunk n w.host)).map
            (putExchange sha256 config url chunk)⟩) := by
  induction n generalizing last w with
  | zero => exact ⟨w.host, by simp [putChunkAttempts, attempted]⟩
  | succ n ih =>
      have hsend : exec (viaHttp (sendRaw config url .put (chunkHeaders sha256 config chunk)
          (.bytes chunk))) { w with host := polled input w.host } =
            let out := config.transport url .put (chunkHeaders sha256 config chunk) (.bytes chunk)
              (polled input w.host)
            some ((out.1.mapError .outbound).mapError .http,
              ⟨out.2, w.log ++ [putExchange sha256 config url chunk out.1]⟩) := rfl
      rw [putChunkAttempts, exec_bind, exec_isCancelled_of_never h]
      simp only [Option.bind_some, Bool.false_eq_true, if_false]
      rw [exec_bind, ← chunkHeaders, hsend, putAnswers]
      generalize config.transport url .put (chunkHeaders sha256 config chunk) (.bytes chunk)
        (polled input w.host) = out
      obtain ⟨answer, s'⟩ := out
      dsimp only
      rw [attempted]
      cases answer with
      | error e =>
          have hleaves : leavesLoop json (.error e) = true := rfl
          rw [if_pos hleaves]
          exact ⟨s', rfl⟩
      | ok response =>
          simp only [Except.mapError, Option.bind_some]
          cases hcheck : throwIfNotOk json response with
          | ok accepted =>
              have hleaves : leavesLoop json (.ok response) = true := by rw [leavesLoop, hcheck]
              have hresult : putResult json bodies (.ok response) =
                  (bodies.chunkAck accepted.body).mapError .decode := by rw [putResult, hcheck]
              rw [if_pos hleaves, List.getLast?_singleton, Option.map_some, hresult]
              refine ⟨s', ?_⟩
              simp only [parseBody]
              cases bodies.chunkAck accepted.body <;> rfl
          | error e =>
              have hresult : putResult json bodies (.ok response) = .error (.http e) := by
                rw [putResult, hcheck]
              have hsame : leavesLoop json (.ok response) = isTerminalChunkError (.http e) := by
                rw [leavesLoop, hcheck]
              rw [hsame]
              by_cases hterminal : isTerminalChunkError (.http e) = true
              · rw [if_pos hterminal, List.getLast?_singleton, Option.map_some, hresult]
                refine ⟨s', ?_⟩
                simp only [hterminal, if_true]
                rfl
              · obtain ⟨s'', hrest⟩ := ih (some (.http e))
                  ⟨s', w.log ++ [putExchange sha256 config url chunk (.ok response)]⟩
                refine ⟨s'', ?_⟩
                rw [if_neg hterminal]
                dsimp only
                rw [if_neg hterminal, hrest, List.getLast?_cons, List.map_cons,
                  List.append_assoc, List.singleton_append]
                cases (attempted (leavesLoop json · = true) n
                  (putAnswers sha256 config input url chunk n s')).getLast? with
                | none => simp [hresult]
                | some a => simp

/-- The loop and the documentation agree on an answer exactly when it is not misread. -/
theorem leavesLoop_iff {answer : PutAnswer} :
    (leavesLoop json answer = true ↔ FinalAnswer answer) ↔ ¬ Misread json answer := by
  cases answer with
  | error e => simp [leavesLoop, FinalAnswer, Misread]
  | ok response =>
      simp only [leavesLoop, FinalAnswer, Misread, throwIfNotOk]
      cases hsuccess : isSuccess response.status with
      | true => simp
      | false =>
          simp [isTerminalChunkError, TerminalStatus, and_assoc]

/-- **A chunk is put again after every transient failure exactly when none before the last attempt is
misread.** -/
theorem retriesTransient_iff (h : NeverCancels input) (sessionId : String) (index : UInt32)
    (chunk : List UInt8) (w : World σ Exchange) :
    (∃ r w' made, exec (putChunkWithRetry json bodies sha256 config input sessionId index chunk) w =
        some (r, w') ∧ RetriesTransient json bodies sha256 config input
          (chunkUrl config sessionId index) chunk w r w' made) ↔
      ∀ a ∈ attempted FinalAnswer (chunkRetryAttempts - 1) (putAnswers sha256 config input
        (chunkUrl config sessionId index) chunk chunkRetryAttempts w.host), ¬ Misread json a := by
  let tape := putAnswers sha256 config input (chunkUrl config sessionId index) chunk
    chunkRetryAttempts w.host
  have hlength : tape.length = chunkRetryAttempts - 1 + 1 := length_putAnswers _ _ _ _
  have hagree : (∀ a ∈ attempted FinalAnswer (chunkRetryAttempts - 1) tape,
      ¬ Misread json a) ↔ attempted (leavesLoop json · = true) chunkRetryAttempts tape =
        attempted FinalAnswer chunkRetryAttempts tape := by
    rw [show chunkRetryAttempts = chunkRetryAttempts - 1 + 1 from rfl,
      attempted_eq_iff FinalAnswer hlength.ge]
    simp only [leavesLoop_iff]
    rfl
  obtain ⟨s, hrun⟩ := @exec_putChunkAttempts _ json bodies sha256 config input h
    (chunkUrl config sessionId index) index chunk chunkRetryAttempts none w
  have hbudget : chunkRetryAttempts ≤ tape.length := hlength.ge
  rw [hagree, eq_attempted_iff FinalAnswer hbudget]
  constructor
  · intro hretries
    obtain ⟨r, w', made, hexec, hmade⟩ := hretries
    have heq := Option.some.inj (hexec.symm.trans hrun)
    have hlog := hmade.requested
    rw [(Prod.mk.inj heq).2, List.append_cancel_left_eq] at hlog
    have hinj : Function.Injective
        (putExchange sha256 config (chunkUrl config sessionId index) chunk) := by
      intro a b hab
      exact congrArg Exchange.answer hab
    rw [List.map_injective_iff.mpr hinj hlog]
    exact ⟨hmade.inOrder, hmade.bounded, hmade.transient, hmade.spent⟩
  · intro hseen
    obtain ⟨htape, hle, htransient, hend⟩ := hseen
    refine ⟨_, _, _, hrun, rfl, htape, hle, htransient, hend, ?_⟩
    have hne : attempted (leavesLoop json · = true) chunkRetryAttempts tape ≠ [] :=
      attempted_ne_nil _ hlength.ge
    have hlast := List.getLast?_eq_getLast_of_ne_nil hne
    exact ⟨_, hlast, by rw [hlast]; rfl⟩

end Run

/-! ## Two runs -/

/-- A gateway that gives these answers, one after another, and then no more. -/
def scriptedConfig : NamespaceConfig (List PutAnswer) where
  apiKey := none
  baseUrl := "https://gateway.example"
  transport := fun url _ _ _ script =>
    (script.headD (.error (.transport url "connection refused")), script.tail)

/-- An upload of one byte without callbacks. -/
def plainInput (σ : Type) : ResumableUploadInput σ where
  target := "arweave"
  source := .bytes [7]
  contentType := none
  thresholdBytes := none
  chunkBytes := none
  resumeSessionId := none
  idempotencyKey := none
  onProgress := none
  cancel := none
  onSessionCreated := none

theorem neverCancels_plainInput (σ : Type) : NeverCancels (plainInput σ) := nofun

/-- A host without files, whose clock stands still. -/
def noFiles (σ : Type) : UploadHost σ where
  now := fun s => (0, s)
  sleep := fun _ s => s
  fileLen := fun _ s => (.error "No such file or directory", s)
  fileContents := fun _ s => (.error "No such file or directory", s)
  fileRead := fun _ _ _ s => (.error "No such file or directory", s)

/-- A reader for which no body is JSON. -/
def noJson : JsonPrimitives where
  fromSlice := fun _ => .error "expected value"
  toText := fun _ => "\x7b\x7d"

/-- The acknowledgement of the first chunk of one. -/
def ackBody : List UInt8 :=
  utf8Bytes "\x7b\"index\":0,\"received\":[0],\"remaining\":0,\"complete\":true\x7d"

/-- Readers that know this acknowledgement. -/
def ackBodies : UploadBodies where
  uploads := fun _ => .error "missing field"
  created := fun _ => .error "missing field"
  deduplicated := fun _ => .error "missing field"
  status := fun _ => .error "missing field"
  chunkAck := fun body => if body = ackBody then .ok ⟨0, 0, true⟩ else .error "missing field"
  attempt := fun _ => .error "missing field"

def noDigest (_ : List UInt8) : Digest := FixedBytes.zero 32

/-- A server error, then the acknowledgement. -/
theorem retriesTransient_serverError : ∃ r w' made,
    exec (putChunkWithRetry noJson ackBodies noDigest scriptedConfig (plainInput _) "s" 0 [7])
      ⟨[.ok ⟨503, [], none, none⟩, .ok ⟨200, ackBody, none, none⟩], []⟩ = some (r, w') ∧
    RetriesTransient noJson ackBodies noDigest scriptedConfig (plainInput _)
      (chunkUrl scriptedConfig "s" 0) [7]
      ⟨[.ok ⟨503, [], none, none⟩, .ok ⟨200, ackBody, none, none⟩], []⟩ r w' made := by
  apply (retriesTransient_iff (neverCancels_plainInput _) "s" 0 [7] _).mpr
  have hseen : attempted FinalAnswer (chunkRetryAttempts - 1)
      (putAnswers noDigest scriptedConfig (plainInput _) (chunkUrl scriptedConfig "s" 0) [7]
        chunkRetryAttempts [.ok ⟨503, [], none, none⟩, .ok ⟨200, ackBody, none, none⟩]) =
      [.ok ⟨503, [], none, none⟩, .ok ⟨200, ackBody, none, none⟩] := rfl
  rw [hseen]
  simp only [List.forall_mem_cons]
  refine ⟨?_, ?_, nofun⟩
  · intro hmisread
    exact hmisread.2 (by decide)
  · intro hmisread
    cases hmisread.1

/-- A connection that fails once, before the gateway would acknowledge the chunk. -/
theorem not_retriesTransient_transport : ¬ ∃ r w' made,
    exec (putChunkWithRetry noJson ackBodies noDigest scriptedConfig (plainInput _) "s" 0 [7])
      ⟨[.error (.transport "https://gateway.example" "connection reset"),
        .ok ⟨200, ackBody, none, none⟩], []⟩ = some (r, w') ∧
    RetriesTransient noJson ackBodies noDigest scriptedConfig (plainInput _)
      (chunkUrl scriptedConfig "s" 0) [7]
      ⟨[.error (.transport "https://gateway.example" "connection reset"),
        .ok ⟨200, ackBody, none, none⟩], []⟩ r w' made := by
  intro h
  obtain ⟨r, w', made, hexec, hmade⟩ := h
  have hrun : exec (putChunkWithRetry noJson ackBodies noDigest scriptedConfig (plainInput _) "s" 0
      [7]) ⟨[.error (.transport "https://gateway.example" "connection reset"),
        .ok ⟨200, ackBody, none, none⟩], []⟩ =
      some (.error (.http (.outbound (.transport "https://gateway.example" "connection reset"))),
        ⟨[.ok ⟨200, ackBody, none, none⟩], [putExchange noDigest scriptedConfig
          (chunkUrl scriptedConfig "s" 0) [7]
          (.error (.transport "https://gateway.example" "connection reset"))]⟩) := rfl
  have hlog := hmade.requested
  rw [hrun] at hexec
  cases hexec
  have hlength : made.length = 1 := by simpa using (congrArg List.length hlog).symm
  rcases hmade.spent with ⟨a, hlast, hfinal⟩ | hspent
  · obtain ⟨b, hb⟩ := List.length_eq_one_iff.mp hlength
    subst hb
    cases hlast
    have hanswer := congrArg (List.map Exchange.answer) hlog
    have herror : b = .error (.transport "https://gateway.example" "connection reset") := by
      simpa [putExchange] using hanswer.symm
    rw [herror] at hfinal
    exact hfinal
  · rw [hlength] at hspent
    exact absurd hspent (by decide)

end Label309
