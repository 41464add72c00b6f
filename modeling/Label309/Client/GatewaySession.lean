import Label309.Client.ChunkGrid
import Label309.Client.CompletionRecovery
import Label309.Client.UploadEnds

/-!
# An upload to a gateway that keeps a session

The gateway is described by what it holds of a session and by how it may answer. It takes a chunk
that it lacks, though it may be busy twice before. It may lose chunks while completions are left, and
an attempt is settled in time. Over every such gateway an upload ends with the address of the
content, and what the gateway holds then is the content.
-/
namespace Label309
open Traced

/-! ## What the gateway holds -/

/-- What the gateway knows of a session: its chunks, how often in a row it was busy, how often it may
still lose chunks, and the attempt that completes it with the time by which that is settled. -/
structure SessionView where
  held : UInt32 → Option (List UInt8)
  refusals : ℕ
  losses : ℕ
  attempt : Option (String × ℕ)

section Views
variable (grid : SessionGrid) (b : List UInt8)

/-- The bytes of a source at an index of the grid. -/
def SessionGrid.piece (i : UInt32) : List UInt8 :=
  (b.drop (i.toNat * grid.chunkBytes.toNat)).take
    (min ((i.toNat + 1) * grid.chunkBytes.toNat) grid.totalBytes.toNat -
      i.toNat * grid.chunkBytes.toNat)

/-- The grid cuts the source. -/
structure SessionGrid.Cuts : Prop where
  chunkPos : 1 ≤ grid.chunkBytes.toNat
  count : grid.chunkCount.toNat = chunksOfTotal grid
  total : grid.totalBytes.toNat = b.length

variable (v : SessionView)

/-- A chunk of the grid that is not held. -/
def SessionView.Lacks (i : UInt32) : Prop := i.toNat < grid.chunkCount.toNat ∧ v.held i = none

/-- Every chunk of the grid is held, and is that of the source. -/
def SessionView.Complete : Prop :=
  ∀ i : UInt32, i.toNat < grid.chunkCount.toNat → v.held i = some (grid.piece b i)

/-- The session is open, and holds chunks of the source only. -/
structure SessionView.Sound : Prop where
  held : ∀ i : UInt32, i.toNat < grid.chunkCount.toNat →
    v.held i = none ∨ v.held i = some (grid.piece b i)
  ready : v.refusals = 0
  unsettled : v.attempt = none

/-- A chunk is taken. -/
def SessionView.take (i : UInt32) (chunk : List UInt8) : SessionView :=
  { v with held := Function.update v.held i (some chunk), refusals := 0 }

variable {grid b v}

theorem SessionView.Sound.complete (h : v.Sound grid b) (hall : ∀ i, ¬ v.Lacks grid i) :
    v.Complete grid b := by
  intro i hi
  rcases h.held i hi with hnone | hsome
  · exact absurd ⟨hi, hnone⟩ (hall i)
  · exact hsome

theorem SessionView.Sound.take (h : v.Sound grid b) (i : UInt32) :
    (v.take i (grid.piece b i)).Sound grid b where
  held := by
    intro j hj
    by_cases heq : j = i
    · rw [heq, SessionView.take]
      exact .inr (Function.update_self i _ _)
    · simpa only [SessionView.take, Function.update_of_ne heq] using h.held j hj
  ready := rfl
  unsettled := h.unsettled

theorem SessionView.lacks_take {i j : UInt32} {chunk : List UInt8} :
    (v.take i chunk).Lacks grid j ↔ v.Lacks grid j ∧ j ≠ i := by
  by_cases heq : j = i
  · simp [SessionView.Lacks, SessionView.take, heq]
  · simp [SessionView.Lacks, SessionView.take, heq]

/-- The chunks that are held join to the source. -/
theorem SessionView.Complete.joined (h : v.Complete grid b) (hcuts : grid.Cuts b) :
    ∃ chunks : List (List UInt8), chunks.flatten = b ∧
      ((List.range grid.chunkCount.toNat).map fun i => v.held (UInt32.ofNat i)) =
        chunks.map some := by
  have hpos : 0 < grid.chunkBytes.toNat := hcuts.chunkPos
  have hsmall := grid.chunkCount.toNat_lt
  let chunkAt (i : ℕ) : List UInt8 := (b.drop (i * grid.chunkBytes.toNat)).take
    (min ((i + 1) * grid.chunkBytes.toNat) grid.totalBytes.toNat - i * grid.chunkBytes.toNat)
  refine ⟨(List.range grid.chunkCount.toNat).map chunkAt, ?_, ?_⟩
  · have hcover := total_le_mul_chunksOfTotal hpos
    rw [flatten_chunks, hcuts.count, min_eq_right hcover, hcuts.total, List.take_length]
  · rw [List.map_map]
    refine List.map_congr_left ?_
    intro i hi
    have hlt := List.mem_range.mp hi
    have hindex : (UInt32.ofNat i).toNat = i :=
      UInt32.toNat_ofNat_of_lt' (hlt.trans hsmall)
    rw [h _ (by rwa [hindex]), SessionGrid.piece, hindex]
    rfl

end Views

/-! ## How it answers -/

section Answers
variable (json : JsonPrimitives) (bodies : UploadBodies)

/-- A chunk that is lacking is taken, or is to be sent again, at most twice in a row. -/
inductive ChunkAnswer (before : SessionView) (i : UInt32) (chunk : List UInt8) :
    PutAnswer → SessionView → Prop
  | taken {response : ClientResponse} {ack : UploadSessionChunkAck}
      (hsuccess : isSuccess response.status = true)
      (hack : bodies.chunkAck response.body = .ok ack) :
      ChunkAnswer before i chunk (.ok response) (before.take i chunk)
  | busy {response : ClientResponse} (hstays : leavesLoop json (.ok response) = false)
      (hfew : before.refusals + 1 < chunkRetryAttempts) :
      ChunkAnswer before i chunk (.ok response) { before with refusals := before.refusals + 1 }

/-- A complete session is completed, or its completion is begun, or chunks turn out to be lost. -/
inductive CompletionAnswer (uri : String) (now : ℕ) (before : SessionView) :
    PutAnswer → SessionView → Prop
  | completed {response : ClientResponse} {value : JsonValue}
      (hsuccess : isSuccess response.status = true)
      (hvalue : json.fromSlice response.body = .ok value)
      (huri : (value.get "uri").bind JsonValue.asStr = some uri) :
      CompletionAnswer uri now before (.ok response) before
  | begun {response : ClientResponse} {value : JsonValue} {attemptId : String} {settlesBy : ℕ}
      (hsuccess : isSuccess response.status = true)
      (hvalue : json.fromSlice response.body = .ok value)
      (huri : (value.get "uri").bind JsonValue.asStr = none)
      (hattempt : (value.get "attempt_id").bind JsonValue.asStr = some attemptId)
      (hsettles : settlesBy ≤ now + attemptPollTimeout) :
      CompletionAnswer uri now before (.ok response)
        { before with attempt := some (attemptId, settlesBy) }
  | lost {response : ClientResponse} {held : UInt32 → Option (List UInt8)}
      (hrefused : isSuccess response.status = false)
      (hincomplete : isIncompleteUploadError (.http (.http (parseHttpError json response))) = true)
      (hleft : 0 < before.losses) (hheld : ∀ i, held i = none ∨ held i = before.held i) :
      CompletionAnswer uri now before (.ok response)
        { before with held := held, losses := before.losses - 1 }

/-- An attempt is committed, or is open before its time. -/
inductive AttemptAnswer (uri : String) (settlesBy next : ℕ) : PutAnswer → Prop
  | committed {response : ClientResponse} {status : UploadAttemptStatus}
      (hsuccess : isSuccess response.status = true)
      (hstatus : bodies.attempt response.body = .ok status) (hstate : status.state = "committed")
      (huri : status.uri = some uri) : AttemptAnswer uri settlesBy next (.ok response)
  | pending {response : ClientResponse} {status : UploadAttemptStatus}
      (hsuccess : isSuccess response.status = true)
      (hstatus : bodies.attempt response.body = .ok status) (hcommitted : status.state ≠ "committed")
      (hreleased : status.state ≠ "released") (hearly : next < settlesBy) :
      AttemptAnswer uri settlesBy next (.ok response)

/-- The status of an open session names what it lacks. -/
structure StatusOf (grid : SessionGrid) (v : SessionView) (status : UploadSessionStatus) : Prop where
  sessionId : status.sessionId = grid.sessionId
  chunkBytes : status.chunkBytes = grid.chunkBytes
  chunkCount : status.chunkCount = grid.chunkCount
  totalBytes : status.totalBytes = grid.totalBytes
  openState : status.state ∉ ["completed", "failed", "expired", "assembling"]
  nodup : status.missing.Nodup
  missing : ∀ i, i ∈ status.missing ↔ v.Lacks grid i

/-- A session is created on the grid, with the chunks that the gateway holds already. -/
structure CreatedOn (grid : SessionGrid) (b : List UInt8) (v : SessionView)
    (created : UploadSessionCreated) : Prop where
  sessionId : created.sessionId = grid.sessionId
  chunkBytes : created.chunkBytes = grid.chunkBytes
  chunkCount : created.chunkCount = grid.chunkCount
  sound : v.Sound grid b
  losses : v.losses ≤ completeRetryAttempts
  received : ∀ i : UInt32, i.toNat < grid.chunkCount.toNat →
    (i ∈ created.received ↔ ¬ v.Lacks grid i)

variable {σ : Type} (sha256 : List UInt8 → Digest) (host : UploadHost σ) (config : NamespaceConfig σ)

/-- **The gateway keeps the session.** It answers so while the requests are right: a chunk is put
only where it is lacking and with the bytes and the digest of the source, and a session is completed
only when it is complete. -/
structure KeepsSession (clock : σ → ℕ) (grid : SessionGrid) (b : List UInt8) (uri : String)
    (view : σ → SessionView) : Prop where
  chunk : ∀ {s i}, (view s).Lacks grid i → ∀ {answer s'},
    config.transport (chunkUrl config grid.sessionId i) .put
      (chunkHeaders sha256 config (grid.piece b i)) (.bytes (grid.piece b i)) s = (answer, s') →
    ChunkAnswer json bodies (view s) i (grid.piece b i) answer (view s')
  completion : ∀ {s key}, (view s).Complete grid b → (view s).attempt = none → ∀ {answer s'},
    config.transport (completeUrl config grid.sessionId) .post (jsonHeaders config.apiKey (some key))
      (.json "\x7b\x7d") s = (answer, s') →
    CompletionAnswer json uri (clock s') (view s) answer (view s')
  status : ∀ {s}, (view s).attempt = none → ∃ response status s',
    config.transport (sessionUrl config grid.sessionId) .get (jsonHeaders config.apiKey none) .none
      s = (.ok response, s') ∧ isSuccess response.status = true ∧
    bodies.status response.body = .ok status ∧ StatusOf grid (view s) status ∧ view s' = view s
  attempt : ∀ {s attemptId settlesBy}, (view s).attempt = some (attemptId, settlesBy) →
    ∀ {answer s'}, config.transport (attemptUrl config attemptId) .get
      (jsonHeaders config.apiKey none) .none s = (answer, s') →
    AttemptAnswer bodies uri settlesBy (host.now s').1 answer ∧ view s' = view s

variable (input : ResumableUploadInput σ)

/-- The gateway creates the session for the source. -/
def OpensSession (grid : SessionGrid) (b : List UInt8) (view : σ → SessionView) (s : σ) : Prop :=
  ∃ response created s', config.transport (sessionsUrl config) .post
      (jsonHeaders config.apiKey none) (.json (json.toText (createBody input (sha256 b)
        (UInt64.ofNat b.length) (input.chunkBytes.getD defaultResumableChunkBytes)))) s =
      (.ok response, s') ∧
    isSuccess response.status = true ∧ response.status ≠ 200 ∧
    bodies.created response.body = .ok created ∧ CreatedOn grid b (view s') created

/-- The session is resumed as it stands, or created. -/
def StartsSession (grid : SessionGrid) (b : List UInt8) (view : σ → SessionView) (s : σ) : Prop :=
  match input.resumeSessionId with
  | some sid => sid = grid.sessionId ∧ (view s).Sound grid b ∧
      (view s).losses ≤ completeRetryAttempts
  | none => (input.thresholdBytes.getD defaultResumableThresholdBytes).toNat < b.length ∧
      ∀ s', view s' = view s → OpensSession json bodies sha256 config input grid b view s'

/-- The caller never cancels, and neither it nor the host touches the session. -/
structure LeavesSession (view : σ → SessionView) : Prop
    extends HostKeeps host fun w w' => view w'.host = view w.host where
  never : NeverCancels input
  polls : ∀ s, view (polled input s) = view s
  progress : ∀ cb, input.onProgress = some cb → ∀ p s, view (cb p s) = view s
  created : ∀ cb, input.onSessionCreated = some cb → ∀ sid s, view (cb sid s) = view s

/-- The source of the upload is these bytes. -/
def SourceHolds (source : ResumableSource) (b : List UInt8) : Prop :=
  match source with
  | .bytes content => content = b
  | .path p => ∀ s, (host.fileLen p s).1 = .ok (UInt64.ofNat b.length) ∧
      (host.fileContents p s).1 = .ok b ∧
      ∀ offset want : UInt64, offset.toNat + want.toNat ≤ b.length →
        (host.fileRead p offset want s).1 = .ok ((b.drop offset.toNat).take want.toNat)

end Answers

/-! ## The steps -/

section Steps
variable {σ : Type} {json : JsonPrimitives} {bodies : UploadBodies} {sha256 : List UInt8 → Digest}
  {host : UploadHost σ} {config : NamespaceConfig σ} {input : ResumableUploadInput σ}
  {clock : σ → ℕ} {grid : SessionGrid} {b : List UInt8} {uri : String} {view : σ → SessionView}

/-- A request that is answered. -/
theorem exec_viaHttp_answered {url : String} {method : HttpMethod}
    {headers : List (String × String)} {body : RequestBody} {w : World σ Exchange}
    {response : ClientResponse} {s' : σ}
    (h : config.transport url method headers body w.host = (.ok response, s')) :
    ∃ w', exec (viaHttp (sendRaw config url method headers body)) w = some (.ok response, w') ∧
      w'.host = s' := by
  refine ⟨⟨s', w.log ++ [⟨url, method, headers, body, .ok response⟩]⟩, ?_, rfl⟩
  rw [viaHttp, exec_mapError, sendRaw, exec_ofStep, World.afterSend, h]
  rfl

theorem throwIfNotOk_of_success {response : ClientResponse}
    (h : isSuccess response.status = true) : throwIfNotOk json response = .ok response := if_pos h

/-- A request that succeeds. -/
theorem succeeds_send {url : String} {method : HttpMethod} {headers : List (String × String)}
    {body : RequestBody} {w : World σ Exchange} {response : ClientResponse} {s' : σ}
    (h : config.transport url method headers body w.host = (.ok response, s'))
    (hsuccess : isSuccess response.status = true) :
    Succeeds (fun r w' => r = response ∧ w'.host = s')
      (viaHttp (send config json url method headers body)) w := by
  refine Succeeds.mapError (Succeeds.bind (Q := fun r w' => r = response ∧ w'.host = s') ?_ ?_)
  · refine ⟨response, ⟨s', w.log ++ [⟨url, method, headers, body, .ok response⟩]⟩, ?_, rfl, rfl⟩
    rw [sendRaw, exec_ofStep, World.afterSend, h]
    rfl
  · intro r w1 hr
    rw [hr.1, throwIfNotOk_of_success hsuccess]
    exact Succeeds.pure ⟨rfl, hr.2⟩

theorem succeeds_parseBody {α : Type} {decoder : List UInt8 → Except String α} {body : List UInt8}
    {value : α} (h : decoder body = .ok value) (w : World σ Exchange) :
    Succeeds (fun a w' => a = value ∧ w' = w) (parseBody decoder body) w := by
  rw [parseBody, h]
  exact Succeeds.pure ⟨rfl, rfl⟩

theorem Succeeds.orAbandon {α : Type} {sid : String} {m : Upload σ α} {w : World σ Exchange}
    {P : α → World σ Exchange → Prop} (h : Succeeds P m w) :
    Succeeds P (orAbandon json config sid m) w := by
  obtain ⟨a, w', hrun, hP⟩ := h
  exact ⟨a, w', exec_orAbandon_of_ne hrun (by simp), hP⟩

section Quiet
variable (hquiet : LeavesSession host input view)
include hquiet

theorem LeavesSession.isCancelled (w : World σ Exchange) :
    Succeeds (fun cancelled w' => cancelled = false ∧ view w'.host = view w.host)
      (isCancelled input) w :=
  ⟨false, _, exec_isCancelled_of_never hquiet.never w, rfl, hquiet.polls w.host⟩

theorem LeavesSession.reportProgress (progress : UploadProgress) (w : World σ Exchange) :
    Succeeds (fun _ w' => view w'.host = view w.host) (reportProgress input progress) w := by
  unfold Label309.reportProgress
  cases hcb : input.onProgress with
  | none => exact Succeeds.pure rfl
  | some cb => exact ⟨(), _, rfl, hquiet.progress cb hcb _ _⟩

/-- The rest of an upload that was not cancelled. -/
theorem LeavesSession.goOn {α : Type} {P : α → World σ Exchange → Prop} {rest : Upload σ α}
    {e : ResumableUploadError} {w : World σ Exchange}
    (h : ∀ w1, view w1.host = view w.host → Succeeds P rest w1) :
    Succeeds P (Label309.isCancelled input >>= fun cancelled =>
      if cancelled = true then (do let _ ← (MonadExcept.throw e : Upload σ Unit); rest)
      else rest) w := by
  refine Succeeds.bind (hquiet.isCancelled w) ?_
  intro cancelled w1 hpoll
  exact Succeeds.unless e (by simp [hpoll.1]) (h w1 hpoll.2)

omit hquiet in
/-- The bounds of a chunk of the grid, as words and as numbers. -/
theorem bounds_of_lt (hcuts : grid.Cuts b) {i : UInt32} (hi : i.toNat < grid.chunkCount.toNat) :
    ∃ offset want : UInt64, offset = i.toUInt64 * grid.chunkBytes ∧
      want = min (saturatingSub64 grid.totalBytes offset) grid.chunkBytes ∧
      offset.toNat = i.toNat * grid.chunkBytes.toNat ∧ offset.toNat < grid.totalBytes.toNat ∧
      want.toNat = min ((i.toNat + 1) * grid.chunkBytes.toNat) grid.totalBytes.toNat -
        i.toNat * grid.chunkBytes.toNat ∧
      0 < want.toNat ∧ offset.toNat + want.toNat ≤ grid.totalBytes.toNat ∧
      (saturatingAdd64 offset want).toNat = offset.toNat + want.toNat := by
  have hpos : 0 < grid.chunkBytes.toNat := hcuts.chunkPos
  rw [hcuts.count] at hi
  have hbelow := (lt_chunksOfTotal_iff hpos).mp hi
  have htop := grid.totalBytes.toNat_lt
  have hoffset : (i.toUInt64 * grid.chunkBytes).toNat = i.toNat * grid.chunkBytes.toNat :=
    toNat_mul_of_lt (mul_lt_of_lt_chunksOfTotal hpos hi)
  have hle : i.toUInt64 * grid.chunkBytes ≤ grid.totalBytes := by
    rw [UInt64.le_iff_toNat_le]
    omega
  have hwant : (min (saturatingSub64 grid.totalBytes (i.toUInt64 * grid.chunkBytes))
      grid.chunkBytes).toNat = min ((i.toNat + 1) * grid.chunkBytes.toNat) grid.totalBytes.toNat -
        i.toNat * grid.chunkBytes.toNat := by
    rw [UInt64.toNat_min, saturatingSub64, if_pos hle, UInt64.toNat_sub_of_le _ _ hle, hoffset,
      Nat.succ_mul]
    omega
  have hsucc : (i.toNat + 1) * grid.chunkBytes.toNat =
      i.toNat * grid.chunkBytes.toNat + grid.chunkBytes.toNat := Nat.succ_mul _ _
  refine ⟨_, _, rfl, rfl, hoffset, by omega, hwant, by omega, by omega, ?_⟩
  rw [saturatingAdd64, if_pos (by omega), UInt64.toNat_add, Nat.mod_eq_of_lt (by omega)]

/-- The chunk that is read is that of the source. -/
theorem LeavesSession.readChunk (hcuts : grid.Cuts b) {source : ResumableSource}
    (hsource : SourceHolds host source b) {i : UInt32} (hi : i.toNat < grid.chunkCount.toNat)
    (w : World σ Exchange) :
    Succeeds (fun chunk w' => chunk = grid.piece b i ∧ view w'.host = view w.host)
      (readChunk host source i grid.chunkBytes grid.totalBytes) w := by
  have htotal := hcuts.total
  have hlength : (UInt64.ofNat b.length).toNat = b.length :=
    UInt64.toNat_ofNat_of_lt' (htotal ▸ grid.totalBytes.toNat_lt)
  obtain ⟨offset, want, hoffset, hwant, hstart, hbelow, hsize, hpos, hfits, hstop⟩ :=
    bounds_of_lt hcuts hi
  have hinside : ¬ (UInt64.ofNat b.length ≤ offset ∨
      UInt64.ofNat b.length < saturatingAdd64 offset want) := by
    rw [UInt64.le_iff_toNat_le, UInt64.lt_iff_toNat_lt, hlength, hstop]
    omega
  have hpiece : (b.drop offset.toNat).take want.toNat = grid.piece b i := by
    rw [SessionGrid.piece, hstart, hsize]
  unfold Label309.readChunk
  dsimp only
  rw [← hoffset, ← hwant, if_neg (by rw [UInt64.le_iff_toNat_le]; omega)]
  cases source with
  | bytes content =>
      have hcontent : content = b := hsource
      rw [hcontent]
      dsimp only
      rw [if_neg hinside, hstop, Nat.add_sub_cancel_left, hpiece]
      exact Succeeds.pure ⟨rfl, rfl⟩
  | path p =>
      obtain ⟨hlen, -, -⟩ := hsource w.host
      refine Succeeds.bind
        (Q := fun len w1 => len = UInt64.ofNat b.length ∧ view w1.host = view w.host)
        ⟨_, _, ?_, rfl, hquiet.fileLen p w⟩ ?_
      · rw [onFile, exec_ofStep, hlen]
        rfl
      intro len w1 hread
      obtain ⟨rfl, hview⟩ := hread
      refine Succeeds.unless _ hinside ?_
      obtain ⟨-, -, hbytes⟩ := hsource w1.host
      refine Succeeds.bind
        (Q := fun buf w2 => buf = grid.piece b i ∧ view w2.host = view w.host)
        ⟨_, _, ?_, rfl, (hquiet.fileRead p offset want w1).trans hview⟩ ?_
      · rw [onFile, exec_ofStep, hbytes offset want (by omega), hpiece]
        rfl
      intro buf w2 hbuf
      obtain ⟨rfl, hview2⟩ := hbuf
      have hfull : (grid.piece b i).length = want.toNat := by
        rw [← hpiece, List.length_take, List.length_drop]
        omega
      exact Succeeds.unless _ (fun hne => hne hfull) (Succeeds.pure ⟨rfl, hview2⟩)

/-! ## The chunks -/

variable (hgateway : KeepsSession json bodies sha256 host config clock grid b uri view)
include hgateway

/-- A chunk that is lacking is taken within the attempts. -/
theorem KeepsSession.putChunkAttempts {i : UInt32} (attempts : ℕ)
    (lastErr : Option ResumableUploadError) {w : World σ Exchange}
    (hlacks : (view w.host).Lacks grid i)
    (hleft : (view w.host).refusals + attempts = chunkRetryAttempts)
    (hfew : (view w.host).refusals < chunkRetryAttempts) :
    Succeeds (fun _ w' => view w'.host = (view w.host).take i (grid.piece b i))
      (putChunkAttempts json bodies sha256 config input (chunkUrl config grid.sessionId i) i
        (grid.piece b i) attempts lastErr) w := by
  induction attempts generalizing lastErr w with
  | zero => omega
  | succ attempts ih =>
      refine hquiet.goOn fun w1 hview => ?_
      rw [← hview] at hlacks hleft hfew ⊢
      obtain ⟨answer, s', hsend⟩ : ∃ answer s', config.transport (chunkUrl config grid.sessionId i)
          .put (chunkHeaders sha256 config (grid.piece b i)) (.bytes (grid.piece b i)) w1.host =
            (answer, s') := ⟨_, _, rfl⟩
      have hanswer := hgateway.chunk hlacks hsend
      generalize hafter : view s' = after at hanswer
      cases hanswer with
      | @taken response ack hsuccess hack =>
          obtain ⟨w2, hrun, hhost⟩ := exec_viaHttp_answered hsend
          refine Succeeds.bind (Q := fun r w' => r = response ∧ w'.host = s') ⟨_, w2, hrun, rfl, hhost⟩
            ?_
          intro r w3 hr
          rw [hr.1, throwIfNotOk_of_success hsuccess]
          refine (succeeds_parseBody hack w3).mono ?_
          intro _ w4 hw
          rw [hw.2, hr.2, hafter]
      | @busy response hstays hagain =>
          obtain ⟨w2, hrun, hhost⟩ := exec_viaHttp_answered hsend
          refine Succeeds.bind (Q := fun r w' => r = response ∧ w'.host = s') ⟨_, w2, hrun, rfl, hhost⟩
            ?_
          intro r w3 hr
          rw [hr.1]
          rw [leavesLoop] at hstays
          rcases @throwIfNotOk_cases json response with ⟨-, hcheck⟩ | ⟨-, hcheck⟩
          · rw [hcheck] at hstays
            cases hstays
          rw [hcheck] at hstays ⊢
          have hviewNow : view w3.host =
              { view w1.host with refusals := (view w1.host).refusals + 1 } := by
            rw [hr.2, hafter]
          refine Succeeds.unless _ (by simp [hstays]) ((ih _ ?_ ?_ ?_).mono ?_)
          · rw [hviewNow]
            exact hlacks
          · rw [hviewNow]
            dsimp only
            omega
          · rw [hviewNow]
            exact hagain
          · intro _ w4 htaken
            rw [htaken, hviewNow]
            rfl

/-- The missing chunks are sent, and nothing else changes. -/
theorem KeepsSession.sendMissingChunks (hcuts : grid.Cuts b)
    (hsource : SourceHolds host input.source b) {session : SessionGrid}
    (hid : session.sessionId = grid.sessionId) (hchunk : session.chunkBytes = grid.chunkBytes)
    (htotal : session.totalBytes = grid.totalBytes) {missing : List UInt32} (hnodup : missing.Nodup)
    (bytesAcked : UInt64) {w : World σ Exchange} (hlacks : ∀ i ∈ missing, (view w.host).Lacks grid i)
    (hsound : (view w.host).Sound grid b) :
    Succeeds (fun _ w' => (view w'.host).Sound grid b ∧
        (view w'.host).losses = (view w.host).losses ∧
        ∀ i, (view w'.host).Lacks grid i → (view w.host).Lacks grid i ∧ i ∉ missing)
      (sendMissingChunks json bodies sha256 host config input session missing bytesAcked) w := by
  induction missing generalizing bytesAcked w with
  | nil => exact Succeeds.pure ⟨hsound, rfl, fun i hi => ⟨hi, List.not_mem_nil⟩⟩
  | cons index missing ih =>
      obtain ⟨hfirst, hrest⟩ := List.forall_mem_cons.mp hlacks
      obtain ⟨hnew, hdistinct⟩ := List.nodup_cons.mp hnodup
      refine hquiet.goOn fun w1 hview => ?_
      rw [hchunk, htotal]
      refine Succeeds.bind (hquiet.readChunk hcuts hsource hfirst.1 w1) ?_
      intro chunk w2 hread
      obtain ⟨rfl, hview2⟩ := hread
      have hbefore : view w2.host = view w.host := hview2.trans hview
      refine Succeeds.bind (Q := fun _ w3 => view w3.host =
        (view w.host).take index (grid.piece b index)) ?_ ?_
      · rw [hid, ← hbefore]
        refine hgateway.putChunkAttempts hquiet chunkRetryAttempts none ?_ ?_ ?_
        · rwa [hbefore]
        · rw [hbefore, hsound.ready, Nat.zero_add]
        · rw [hbefore, hsound.ready]
          decide
      intro ack w3 htaken
      refine Succeeds.bind (hquiet.reportProgress _ w3) ?_
      intro reported w4 hview4
      have hnow : view w4.host = (view w.host).take index (grid.piece b index) :=
        hview4.trans htaken
      refine (ih hdistinct _ ?_ ?_).mono ?_
      · intro i hi
        rw [hnow, SessionView.lacks_take]
        exact ⟨hrest i hi, fun heq => hnew (heq ▸ hi)⟩
      · rw [hnow]
        exact hsound.take index
      · intro acked w5 hend
        rw [hnow] at hend
        refine ⟨hend.1, hend.2.1, ?_⟩
        intro i hi
        obtain ⟨hlack, hnot⟩ := hend.2.2 i hi
        rw [SessionView.lacks_take] at hlack
        exact ⟨hlack.1, fun hmem => (List.mem_cons.mp hmem).elim hlack.2 hnot⟩

/-! ## The attempt -/

omit hquiet in
theorem KeepsSession.getStatus {w : World σ Exchange} (hopen : (view w.host).attempt = none) :
    Succeeds (fun status w' => StatusOf grid (view w.host) status ∧ view w'.host = view w.host)
      (getStatus json bodies config grid.sessionId) w := by
  obtain ⟨response, status, s', hsend, hsuccess, hdecode, hstatus, hview⟩ := hgateway.status hopen
  refine Succeeds.bind (succeeds_send hsend hsuccess) ?_
  intro r w1 hr
  rw [hr.1]
  refine (succeeds_parseBody hdecode w1).mono ?_
  intro a w2 ha
  rw [ha.1, ha.2, hr.2]
  exact ⟨hstatus, hview⟩

omit hgateway in
theorem LeavesSession.callerKeeps :
    CallerKeeps input fun w w' => view w'.host = view w.host where
  toKeeps := hquiet.toKeeps
  poll := by
    intro poll hpoll w
    have hsame := hquiet.polls w.host
    rwa [polled, hpoll] at hsame

omit hgateway in
/-- A sleep that nobody cancels takes its time. -/
theorem LeavesSession.sleepUntil {deadline fuel : ℕ} {w w' : World σ Exchange}
    {r : Except ResumableUploadError Bool}
    (hrun : exec (sleepUntil host input deadline fuel) w = some (r, w')) : r = .ok true := by
  induction fuel generalizing w with
  | zero => cases hrun
  | succ fuel ih =>
      have hrest := exec_rest (exec_isCancelled_of_never hquiet.never w) hrun
      rw [if_neg Bool.false_ne_true] at hrest
      replace hrest := exec_rest rfl hrest
      dsimp only at hrest
      by_cases hdue : deadline ≤ (host.now (polled input w.host)).1
      · rw [if_pos hdue] at hrest
        cases hrest
        rfl
      · rw [if_neg hdue] at hrest
        replace hrest := exec_rest rfl hrest
        exact ih hrest

omit hgateway in
theorem LeavesSession.interruptibleSleep {fuel total : ℕ} {w w' : World σ Exchange}
    {r : Except ResumableUploadError Bool}
    (hrun : exec (interruptibleSleep host input fuel total) w = some (r, w')) :
    r = .ok true ∧ view w'.host = view w.host := by
  refine ⟨?_, hquiet.toHostKeeps.interruptibleSleep hquiet.callerKeeps fuel total w r w' hrun⟩
  unfold Label309.interruptibleSleep at hrun
  by_cases hnone : input.cancel.isNone = true
  · rw [if_pos hnone] at hrun
    cases exec_rest rfl hrun
    rfl
  · rw [if_neg hnone] at hrun
    replace hrun := exec_rest rfl hrun
    exact hquiet.sleepUntil hrun

/-- Polling up to a deadline after the attempt is settled gives the address. -/
theorem KeepsSession.pollUntil {sid attemptId : String} {settlesBy deadline fuel : ℕ}
    (hdeadline : settlesBy ≤ deadline) {w w' : World σ Exchange}
    {r : Except ResumableUploadError ResumableUploadResult}
    (hattempt : (view w.host).attempt = some (attemptId, settlesBy))
    (hrun : exec (pollUntil json bodies host config input (attemptUrl config attemptId) sid attemptId
      deadline fuel) w = some (r, w')) :
    (∃ result, r = .ok result ∧ result.uri = uri) ∧ view w'.host = view w.host := by
  induction fuel generalizing w with
  | zero => cases hrun
  | succ fuel ih =>
      have hrest := exec_rest (exec_isCancelled_of_never hquiet.never w) hrun
      rw [if_neg Bool.false_ne_true] at hrest
      have hview1 := hquiet.polls w.host
      obtain ⟨answer, s', hsend⟩ : ∃ answer s', config.transport (attemptUrl config attemptId) .get
          (jsonHeaders config.apiKey none) .none (polled input w.host) = (answer, s') :=
        ⟨_, _, rfl⟩
      obtain ⟨hanswer, hview2⟩ := hgateway.attempt (by rwa [hview1]) hsend
      have hviewed : view s' = view w.host := hview2.trans hview1
      cases hanswer with
      | @committed response status hsuccess hstatus hstate huri =>
          obtain ⟨_, w2, hget, rfl, hhost⟩ := @succeeds_send σ json config _ _ _ _
            { w with host := polled input w.host } _ _ hsend hsuccess
          replace hrest := exec_rest hget hrest
          obtain ⟨_, _, hparse, rfl, rfl⟩ := succeeds_parseBody hstatus w2
          replace hrest := exec_rest hparse hrest
          rw [if_pos hstate, huri] at hrest
          cases hrest
          exact ⟨⟨_, rfl, rfl⟩, by rw [hhost, hviewed]⟩
      | @pending response status hsuccess hstatus hcommitted hreleased hearly =>
          obtain ⟨_, w2, hget, rfl, hhost⟩ := @succeeds_send σ json config _ _ _ _
            { w with host := polled input w.host } _ _ hsend hsuccess
          replace hrest := exec_rest hget hrest
          obtain ⟨_, w3, hparse, rfl, rfl⟩ := succeeds_parseBody hstatus w2
          replace hrest := exec_rest hparse hrest
          rw [if_neg hcommitted, if_neg hreleased] at hrest
          replace hrest := exec_rest rfl hrest
          dsimp only at hrest
          rw [hhost, if_neg (by omega)] at hrest
          rcases exec_bind_cases hrest with ⟨e, hsleep, -⟩ | ⟨slept, w4, hsleep, hagain⟩
          · cases (hquiet.interruptibleSleep hsleep).1
          obtain ⟨hslept, hview4⟩ := hquiet.interruptibleSleep hsleep
          cases hslept
          have hstill : view w4.host = view w.host := by
            rw [hview4, ← hviewed, ← hhost]
            exact hquiet.now w3
          obtain ⟨hresult, hview5⟩ := ih (by rwa [hstill]) hagain
          exact ⟨hresult, hview5.trans hstill⟩

variable (htime : KeepsTime host config input clock) {fuel : ℕ}
  (hfuel : pollsOfTimeout + slicesOfInterval < fuel)
include htime hfuel

theorem KeepsSession.pollAttempt {sid attemptId : String} {settlesBy : ℕ} {w : World σ Exchange}
    (hattempt : (view w.host).attempt = some (attemptId, settlesBy))
    (hsettles : settlesBy ≤ clock w.host + attemptPollTimeout) :
    Succeeds (fun result w' => result.uri = uri ∧ view w'.host = view w.host)
      (pollAttempt json bodies host config input fuel sid attemptId) w := by
  have hends : Costs (pollsOfTimeout + 1) 0 0
      (Label309.pollAttempt json bodies host config input fuel sid attemptId) :=
    htime.pollAttempt hfuel sid attemptId
  obtain ⟨r, w', hrun, -⟩ := hends w
  have hpolls := exec_rest rfl hrun
  have hnow := htime.now w.host
  have hview1 := hquiet.now w
  have hdeadline : settlesBy ≤ (host.now w.host).1 + attemptPollTimeout := by omega
  obtain ⟨⟨result, hr, huri⟩, hview⟩ :=
    hgateway.pollUntil hquiet hdeadline (hview1 ▸ hattempt) hpolls
  rw [hr] at hrun
  exact ⟨result, w', hrun, huri, hview.trans hview1⟩

/-! ## The completion -/

/-- A complete session gives the address, as often as chunks may turn out to be lost. -/
theorem KeepsSession.completeAttempts (hcuts : grid.Cuts b)
    (hsource : SourceHolds host input.source b) {session : SessionGrid}
    (hid : session.sessionId = grid.sessionId) (hchunk : session.chunkBytes = grid.chunkBytes)
    (htotal : session.totalBytes = grid.totalBytes) {key : String} {attempts : ℕ}
    (bytesAcked : UInt64) {w : World σ Exchange} (hsound : (view w.host).Sound grid b)
    (hall : ∀ i, ¬ (view w.host).Lacks grid i) (hlosses : (view w.host).losses < attempts) :
    Succeeds (fun result w' => result.uri = uri ∧ (view w'.host).Complete grid b)
      (completeAttempts json bodies sha256 host config input fuel session
        (completeUrl config grid.sessionId) (jsonHeaders config.apiKey (some key)) attempts
        bytesAcked) w := by
  induction attempts generalizing bytesAcked w with
  | zero => omega
  | succ attempts ih =>
      refine hquiet.goOn fun w1 hview => ?_
      rw [← hview] at hsound hall hlosses
      have hcomplete := hsound.complete hall
      obtain ⟨answer, s', hsend⟩ : ∃ answer s', config.transport (completeUrl config grid.sessionId)
          .post (jsonHeaders config.apiKey (some key)) (.json "\x7b\x7d") w1.host = (answer, s') :=
        ⟨_, _, rfl⟩
      have hanswer := hgateway.completion hcomplete hsound.unsettled hsend
      generalize hafter : view s' = after at hanswer
      cases hanswer with
      | @completed response value hsuccess hvalue huri =>
          obtain ⟨w2, hrun, hhost⟩ := exec_viaHttp_answered hsend
          refine Succeeds.bind (Q := fun r w' => r = response ∧ w'.host = s') ⟨_, w2, hrun, rfl, hhost⟩
            ?_
          intro r w3 hr
          rw [hr.1, throwIfNotOk_of_success hsuccess]
          refine Succeeds.bind (succeeds_parseBody hvalue w3) ?_
          intro a w4 ha
          rw [ha.1, huri, ha.2]
          refine Succeeds.pure ⟨rfl, ?_⟩
          rw [hr.2, hafter]
          exact hcomplete
      | @begun response value attemptId settlesBy hsuccess hvalue huri hattempt hsettles =>
          obtain ⟨w2, hrun, hhost⟩ := exec_viaHttp_answered hsend
          refine Succeeds.bind (Q := fun r w' => r = response ∧ w'.host = s') ⟨_, w2, hrun, rfl, hhost⟩
            ?_
          intro r w3 hr
          rw [hr.1, throwIfNotOk_of_success hsuccess]
          refine Succeeds.bind (succeeds_parseBody hvalue w3) ?_
          intro a w4 ha
          rw [ha.1, huri, ha.2]
          dsimp only
          rw [hattempt]
          have hbegun : view w3.host =
              { view w1.host with attempt := some (attemptId, settlesBy) } := by
            rw [hr.2, hafter]
          have hopened : (view w3.host).attempt = some (attemptId, settlesBy) := by rw [hbegun]
          refine (hgateway.pollAttempt hquiet htime hfuel hopened (by rwa [hr.2])).mono ?_
          intro result w5 hend
          refine ⟨hend.1, ?_⟩
          rw [hend.2, hbegun]
          exact hcomplete
      | @lost response held hrefused hincomplete hleft hheld =>
          obtain ⟨w2, hrun, hhost⟩ := exec_viaHttp_answered hsend
          refine Succeeds.bind (Q := fun r w' => r = response ∧ w'.host = s') ⟨_, w2, hrun, rfl, hhost⟩
            ?_
          intro r w3 hr
          have hcheck : throwIfNotOk json response = .error (.http (parseHttpError json response)) :=
            if_neg (by rw [hrefused]; exact Bool.false_ne_true)
          rw [hr.1, hcheck]
          refine Succeeds.unless _ (by simp [hincomplete]) ?_
          have hlost : view w3.host = { view w1.host with
              held := held
              losses := (view w1.host).losses - 1 } := by
            rw [hr.2, hafter]
          have hstill : (view w3.host).Sound grid b := by
            rw [hlost]
            refine ⟨?_, hsound.ready, hsound.unsettled⟩
            intro i hi
            rcases hheld i with hnone | hsame
            · exact .inl hnone
            · have hbefore := hsound.held i hi
              rwa [← hsame] at hbefore
          refine Succeeds.bind (hid ▸ hgateway.getStatus hstill.unsettled) ?_
          intro status w4 hstatus
          obtain ⟨hstatus, hview4⟩ := hstatus
          have hfewer : (view w3.host).losses < attempts := by
            rw [hlost]
            dsimp only
            omega
          by_cases hempty : status.missing.isEmpty = true
          · rw [if_pos hempty]
            rw [List.isEmpty_iff] at hempty
            refine ih _ ?_ ?_ ?_
            · rwa [hview4]
            · intro i hi
              rw [hview4, ← hstatus.missing, hempty] at hi
              exact List.not_mem_nil hi
            · rwa [hview4]
          · rw [if_neg hempty]
            refine Succeeds.bind (hgateway.sendMissingChunks hquiet hcuts hsource hid hchunk htotal
              hstatus.nodup bytesAcked ?_ ?_) ?_
            · intro i hi
              rw [hview4]
              exact (hstatus.missing i).mp hi
            · rwa [hview4]
            · intro acked w5 hsent
              rw [hview4] at hsent
              refine ih _ hsent.1 ?_ ?_
              · intro i hi
                obtain ⟨hlack, hnot⟩ := hsent.2.2 i hi
                exact hnot ((hstatus.missing i).mpr hlack)
              · rw [hsent.2.1]
                exact hfewer

/-! ## The whole upload -/

variable (hcuts : grid.Cuts b) (hsource : SourceHolds host input.source b)
include hcuts hsource

/-- A session of the grid whose missing chunks are those that the gateway lacks. -/
theorem KeepsSession.driveSession {session : SessionGrid}
    (hid : session.sessionId = grid.sessionId) (hchunk : session.chunkBytes = grid.chunkBytes)
    (htotal : session.totalBytes = grid.totalBytes) (hnodup : session.missing.Nodup)
    {w : World σ Exchange} (hmissing : ∀ i, i ∈ session.missing ↔ (view w.host).Lacks grid i)
    (hsound : (view w.host).Sound grid b) (hlosses : (view w.host).losses ≤ completeRetryAttempts) :
    Succeeds (fun result w' => result.uri = uri ∧ (view w'.host).Complete grid b)
      (driveSession json bodies sha256 host config input fuel session) w := by
  refine Succeeds.bind (Succeeds.orAbandon (hgateway.sendMissingChunks hquiet hcuts hsource hid hchunk
    htotal hnodup _ (fun i => (hmissing i).mp) hsound)) ?_
  intro bytesAcked w1 hsent
  refine Succeeds.orAbandon ?_
  unfold Label309.completeSession
  rw [hid]
  refine hgateway.completeAttempts hquiet htime hfuel hcuts hsource hid hchunk htotal bytesAcked
    hsent.1 ?_ ?_
  · intro i hi
    obtain ⟨hlack, hnot⟩ := hsent.2.2 i hi
    exact hnot ((hmissing i).mpr hlack)
  · rw [hsent.2.1]
    exact Nat.lt_succ_of_le hlosses

theorem KeepsSession.resumeSession {w : World σ Exchange} (hsound : (view w.host).Sound grid b)
    (hlosses : (view w.host).losses ≤ completeRetryAttempts) :
    Succeeds (fun result w' => result.uri = uri ∧ (view w'.host).Complete grid b)
      (resumeSession json bodies sha256 host config input fuel grid.sessionId) w := by
  refine hquiet.goOn fun w1 hview => ?_
  rw [← hview] at hsound hlosses
  refine Succeeds.bind (hgateway.getStatus hsound.unsettled) ?_
  intro status w2 hread
  obtain ⟨hstatus, hview2⟩ := hread
  have hgoesOn : terminalFromStatus json bodies host config input fuel status = pure none := by
    have hstate := hstatus.openState
    simp only [List.mem_cons, List.not_mem_nil, or_false, not_or] at hstate
    unfold Label309.terminalFromStatus
    rw [if_neg hstate.1, if_neg hstate.2.1, if_neg hstate.2.2.1, if_neg hstate.2.2.2]
  rw [hgoesOn]
  refine Succeeds.bind (Q := fun done w3 => done = none ∧ w3 = w2)
    (Succeeds.orAbandon (Succeeds.pure ⟨rfl, rfl⟩)) ?_
  intro done w3 hdone
  rw [hdone.1, hdone.2]
  refine hgateway.driveSession hquiet htime hfuel hcuts hsource hstatus.sessionId hstatus.chunkBytes
    hstatus.totalBytes hstatus.nodup ?_ ?_ ?_
  · rw [hview2]
    exact hstatus.missing
  · rwa [hview2]
  · rwa [hview2]

omit hquiet hgateway htime hfuel hcuts hsource in
theorem mem_unreceived {n i : UInt32} {received : List UInt32} :
    i ∈ ((List.range n.toNat).map UInt32.ofNat).filter (fun i => !received.contains i) ↔
      i.toNat < n.toNat ∧ i ∉ received := by
  have hindex : i ∈ (List.range n.toNat).map UInt32.ofNat ↔ i.toNat < n.toNat := by
    rw [List.mem_map]
    constructor
    · intro h
      obtain ⟨k, hk, rfl⟩ := h
      have hlt := List.mem_range.mp hk
      rwa [UInt32.toNat_ofNat_of_lt' (hlt.trans n.toNat_lt)]
    · intro h
      exact ⟨i.toNat, List.mem_range.mpr h, UInt32.ofNat_toNat⟩
  rw [List.mem_filter, hindex]
  simp

omit hquiet hgateway htime hfuel hcuts hsource in
theorem nodup_unreceived (n : UInt32) (received : List UInt32) :
    (((List.range n.toNat).map UInt32.ofNat).filter fun i => !received.contains i).Nodup := by
  refine List.Nodup.filter _ (List.Nodup.map_on ?_ List.nodup_range)
  intro i hi j hj heq
  have hi' := (List.mem_range.mp hi).trans n.toNat_lt
  have hj' := (List.mem_range.mp hj).trans n.toNat_lt
  rw [← UInt32.toNat_ofNat_of_lt' hi', heq, UInt32.toNat_ofNat_of_lt' hj']

omit hgateway htime hfuel hcuts in
theorem LeavesSession.sourceLen (w : World σ Exchange) :
    Succeeds (fun total w' => total = UInt64.ofNat b.length ∧ view w'.host = view w.host)
      (sourceLen host input.source) w := by
  cases hkind : input.source with
  | bytes content =>
      rw [hkind] at hsource
      exact Succeeds.pure ⟨congrArg (fun c => UInt64.ofNat c.length) hsource, rfl⟩
  | path p =>
      rw [hkind] at hsource
      refine ⟨_, _, ?_, rfl, hquiet.fileLen p w⟩
      rw [Label309.sourceLen, onFile, exec_ofStep, (hsource w.host).1]
      rfl

omit hgateway htime hfuel hcuts in
theorem LeavesSession.streamSha256 (w : World σ Exchange) :
    Succeeds (fun digest w' => digest = sha256 b ∧ view w'.host = view w.host)
      (streamSha256 sha256 host input.source) w := by
  cases hkind : input.source with
  | bytes content =>
      rw [hkind] at hsource
      exact Succeeds.pure ⟨congrArg sha256 hsource, rfl⟩
  | path p =>
      rw [hkind] at hsource
      refine Succeeds.bind (Q := fun contents w1 => contents = b ∧ view w1.host = view w.host)
        ⟨_, _, ?_, rfl, hquiet.fileContents p w⟩ ?_
      · rw [onFile, exec_ofStep, (hsource w.host).2.1]
        rfl
      · intro contents w1 hread
        exact Succeeds.pure ⟨congrArg sha256 hread.1, hread.2⟩

theorem KeepsSession.freshSession {w : World σ Exchange} (hcreate : ∀ s, view s = view w.host →
      OpensSession json bodies sha256 config input grid b view s) :
    Succeeds (fun result w' => result.uri = uri ∧ (view w'.host).Complete grid b)
      (freshSession json bodies sha256 host config input fuel) w := by
  refine hquiet.goOn fun w1 hview => ?_
  refine Succeeds.bind (hquiet.sourceLen hsource w1) ?_
  intro total w2 htotal
  refine Succeeds.bind (hquiet.streamSha256 hsource w2) ?_
  intro digest w3 hdigest
  obtain ⟨rfl, hview2⟩ := htotal
  obtain ⟨rfl, hview3⟩ := hdigest
  obtain ⟨response, created, s', hsend, hsuccess, hstatus, hdecode, hcreated⟩ :=
    hcreate w3.host (hview3.trans (hview2.trans hview))
  refine Succeeds.bind (Q := fun outcome w4 => outcome = .created created ∧ w4.host = s') ?_ ?_
  · obtain ⟨w4, hrun, hhost⟩ := exec_viaHttp_answered hsend
    refine Succeeds.bind (Q := fun r w' => r = response ∧ w'.host = s') ⟨_, w4, hrun, rfl, hhost⟩ ?_
    intro r w5 hr
    have hunpaid : response.status ≠ 402 := by
      intro heq
      rw [heq] at hsuccess
      exact absurd hsuccess (by decide)
    rw [hr.1]
    refine Succeeds.unless _ hunpaid ?_
    rw [throwIfNotOk_of_success hsuccess]
    dsimp only
    rw [if_neg hstatus]
    refine Succeeds.bind (succeeds_parseBody hdecode w5) ?_
    intro a w6 ha
    exact Succeeds.pure ⟨congrArg _ ha.1, by rw [ha.2, hr.2]⟩
  intro outcome w4 houtcome
  rw [houtcome.1]
  have hdrive : ∀ w5 : World σ Exchange, view w5.host = view s' →
      Succeeds (fun result w' => result.uri = uri ∧ (view w'.host).Complete grid b)
        (Label309.driveSession json bodies sha256 host config input fuel {
          sessionId := created.sessionId
          chunkBytes := created.chunkBytes
          chunkCount := created.chunkCount
          totalBytes := UInt64.ofNat b.length
          declaredSha256Hex := hexEncode (sha256 b).val
          missing := ((List.range created.chunkCount.toNat).map UInt32.ofNat).filter fun i =>
            !created.received.contains i }) w5 := by
    intro w5 hview5
    have htotal : UInt64.ofNat b.length = grid.totalBytes := by
      rw [← hcuts.total, UInt64.ofNat_toNat]
    refine hgateway.driveSession hquiet htime hfuel hcuts hsource hcreated.sessionId
      hcreated.chunkBytes htotal (nodup_unreceived _ _) ?_ ?_ ?_
    · intro i
      rw [mem_unreceived, hcreated.chunkCount, hview5]
      constructor
      · intro hi
        exact not_not.mp fun hnot => hi.2 ((hcreated.received i hi.1).mpr hnot)
      · intro hlacks
        exact ⟨hlacks.1, fun hmem => (hcreated.received i hlacks.1).mp hmem hlacks⟩
    · rw [hview5]
      exact hcreated.sound
    · rw [hview5]
      exact hcreated.losses
  dsimp only
  cases hcb : input.onSessionCreated with
  | some cb =>
      refine Succeeds.bind (Q := fun _ w5 => view w5.host = view s') ⟨(), _, rfl, ?_⟩
        fun _ w5 => hdrive w5
      rw [← houtcome.2]
      exact hquiet.created cb hcb _ _
  | none => exact hdrive w4 (by rw [houtcome.2])

end Quiet
end Steps

/-- **An upload over a gateway that keeps the session ends with its address**, and the chunks that
the gateway holds then join to the source. -/
theorem uploadResumable_stores {σ : Type} {json : JsonPrimitives} {bodies : UploadBodies}
    {sha256 : List UInt8 → Digest} {host : UploadHost σ} {config : NamespaceConfig σ}
    {input : ResumableUploadInput σ} {clock : σ → ℕ} {grid : SessionGrid} {b : List UInt8}
    {uri : String} {view : σ → SessionView} (hquiet : LeavesSession host input view)
    (hgateway : KeepsSession json bodies sha256 host config clock grid b uri view)
    (htime : KeepsTime host config input clock) (hcuts : grid.Cuts b)
    (hsource : SourceHolds host input.source b) {fuel : ℕ} (hfuel : 620 < fuel)
    {w : World σ Exchange}
    (hstarts : StartsSession json bodies sha256 config input grid b view w.host) :
    ∃ result w', ∃ chunks : List (List UInt8), exec (uploadResumable json bodies sha256 host config input fuel) w =
        some (.ok result, w') ∧ result.uri = uri ∧ chunks.flatten = b ∧
      ((List.range grid.chunkCount.toNat).map fun i => (view w'.host).held (UInt32.ofNat i)) =
        chunks.map some := by
  suffices hsucceeds : Succeeds
      (fun result w' => result.uri = uri ∧ (view w'.host).Complete grid b)
      (uploadResumable json bodies sha256 host config input fuel) w by
    obtain ⟨result, w', hrun, huri, hcomplete⟩ := hsucceeds
    obtain ⟨chunks, hflatten, hheld⟩ := hcomplete.joined hcuts
    exact ⟨result, w', chunks, hrun, huri, hflatten, hheld⟩
  unfold uploadResumable
  unfold StartsSession at hstarts
  cases hresume : input.resumeSessionId with
  | some sid =>
      rw [hresume] at hstarts
      obtain ⟨rfl, hsound, hlosses⟩ := hstarts
      unfold chunked
      rw [hresume]
      exact hgateway.resumeSession hquiet htime hfuel hcuts hsource hsound hlosses
  | none =>
      rw [hresume] at hstarts
      obtain ⟨hlong, hcreate⟩ := hstarts
      refine Succeeds.bind (hquiet.sourceLen hsource w) ?_
      intro total w1 htotal
      have hlength : (UInt64.ofNat b.length).toNat = b.length :=
        UInt64.toNat_ofNat_of_lt' (hcuts.total ▸ grid.totalBytes.toNat_lt)
      rw [htotal.1, if_neg (by rw [UInt64.le_iff_toNat_le, hlength]; omega)]
      unfold chunked
      rw [hresume]
      refine hgateway.freshSession hquiet htime hfuel hcuts hsource ?_
      intro s hs
      exact hcreate s (hs.trans htotal.2)

/-! ## A session of three chunks -/

def keptSource : List UInt8 := [1, 2, 3, 4, 5]

/-- The SHA-256 digests of the source and of the two chunks that are missing. -/
def keptSha256 (b : List UInt8) : Digest :=
  if b = keptSource then
    ⟨[116, 248, 31, 225, 103, 217, 155, 76, 180, 29, 109, 12, 205, 168, 34, 120, 202, 238, 159, 62,
      47, 37, 213, 229, 163, 147, 111, 243, 220, 236, 96, 208], rfl⟩
  else if b = [3, 4] then
    ⟨[12, 227, 148, 11, 235, 242, 178, 42, 93, 33, 8, 236, 240, 195, 104, 160, 84, 28, 126, 60, 69,
      112, 63, 133, 64, 146, 27, 78, 175, 200, 41, 71], rfl⟩
  else if b = [5] then
    ⟨[231, 123, 154, 154, 233, 227, 11, 13, 189, 182, 245, 16, 162, 100, 239, 157, 231, 129, 80, 29,
      123, 107, 146, 174, 137, 235, 5, 156, 90, 183, 67, 219], rfl⟩
  else noDigest b

def keptGrid : SessionGrid where
  sessionId := "s"
  chunkBytes := 2
  chunkCount := 3
  totalBytes := 5
  declaredSha256Hex := "74f81fe167d99b4cb41d6d0ccda82278caee9f3e2f25d5e5a3936ff3dcec60d0"
  missing := [1, 2]

/-- The two chunks after the first, which is held already, with the time of the host. -/
structure KeptChunks where
  time : ℕ
  second : Option (List UInt8)
  third : Option (List UInt8)

def KeptChunks.view (s : KeptChunks) : SessionView where
  held := fun i => if i = 0 then some [1, 2] else if i = 1 then s.second else if i = 2 then s.third
    else none
  refusals := 0
  losses := 0
  attempt := none

def KeptChunks.missing (s : KeptChunks) : List UInt32 :=
  (if s.second = none then [1] else []) ++ if s.third = none then [2] else []

/-- The body of a status that names these chunks. -/
def keptStatusBody (missing : String) : List UInt8 :=
  utf8Bytes ("\x7b\"session_id\":\"s\",\"state\":\"open\",\"sha256\":\"" ++
    keptGrid.declaredSha256Hex ++ "\",\"total_bytes\":5,\"chunk_bytes\":2,\"chunk_count\":3," ++
    "\"missing\":[" ++ missing ++ "],\"expires_at\":\"2026-01-01T00:00:00Z\"\x7d")

def KeptChunks.statusBody (s : KeptChunks) : List UInt8 :=
  match s.second, s.third with
  | none, none => keptStatusBody "1,2"
  | none, some _ => keptStatusBody "1"
  | some _, none => keptStatusBody "2"
  | some _, some _ => keptStatusBody ""

/-- The body that acknowledges a chunk. -/
def keptAckBody (index received remaining complete : String) : List UInt8 :=
  utf8Bytes ("\x7b\"index\":" ++ index ++ ",\"received\":[" ++ received ++ "],\"remaining\":" ++
    remaining ++ ",\"complete\":" ++ complete ++ "\x7d")

/-- The acknowledgement in the new state, of a chunk that may be the last to come. -/
def KeptChunks.ackBody (index received : String) (s : KeptChunks) : List UInt8 :=
  match s.second, s.third with
  | some _, some _ => keptAckBody index "0,1,2" "0" "true"
  | _, _ => keptAckBody index received "1" "false"

def keptStatus (missing : List UInt32) : UploadSessionStatus where
  sessionId := "s"
  state := "open"
  sha256 := keptGrid.declaredSha256Hex
  totalBytes := 5
  chunkBytes := 2
  chunkCount := 3
  missing := missing
  attemptId := none
  uri := none

/-- Readers of these bodies. -/
def keptBodies : UploadBodies :=
  { ackBodies with
    status := fun body =>
      if body = keptStatusBody "1,2" then .ok (keptStatus [1, 2])
      else if body = keptStatusBody "1" then .ok (keptStatus [1])
      else if body = keptStatusBody "2" then .ok (keptStatus [2])
      else if body = keptStatusBody "" then .ok (keptStatus [])
      else .error "missing field"
    chunkAck := fun body =>
      if body = keptAckBody "1" "0,1" "1" "false" then .ok ⟨1, 1, false⟩
      else if body = keptAckBody "1" "0,1,2" "0" "true" then .ok ⟨1, 0, true⟩
      else if body = keptAckBody "2" "0,2" "1" "false" then .ok ⟨2, 1, false⟩
      else if body = keptAckBody "2" "0,1,2" "0" "true" then .ok ⟨2, 0, true⟩
      else .error "missing field" }

/-- The body of a request for a chunk. -/
def chunkOf : RequestBody → Option (List UInt8)
  | .bytes b => some b
  | _ => none

/-- A chunk is kept by the index that ends its address. -/
def KeptChunks.put (url : String) (body : RequestBody) (s : KeptChunks) : PutAnswer × KeptChunks :=
  if url = "https://gateway.example/poe/uploads/sessions/s/chunks/1" then
    let s' := { s with second := chunkOf body }
    (.ok ⟨200, s'.ackBody "1" "0,1", none, none⟩, s')
  else if url = "https://gateway.example/poe/uploads/sessions/s/chunks/2" then
    let s' := { s with third := chunkOf body }
    (.ok ⟨200, s'.ackBody "2" "0,2", none, none⟩, s')
  else (.ok ⟨404, [], none, none⟩, s)

/-- A gateway that keeps the session. -/
def keepingConfig : NamespaceConfig KeptChunks where
  apiKey := none
  baseUrl := "https://gateway.example"
  transport := fun url method _ body s =>
    match method with
    | .put => s.put url body
    | .post => (.ok ⟨200, completedBody, none, none⟩, s)
    | _ => (.ok ⟨200, s.statusBody, none, none⟩, s)

def keepingHost : UploadHost KeptChunks :=
  { noFiles _ with
    sleep := fun t s => { s with time := s.time + t }
    now := fun s => (s.time, s) }

def keptInput : ResumableUploadInput KeptChunks :=
  { plainInput _ with source := .bytes keptSource, resumeSessionId := some "s" }

theorem KeptChunks.view_second (s : KeptChunks) (chunk : List UInt8) :
    KeptChunks.view { s with second := some chunk } = s.view.take 1 chunk := by
  simp only [KeptChunks.view, SessionView.take, SessionView.mk.injEq, and_true]
  funext i
  by_cases h1 : i = 1
  · simp [h1]
  · simp [h1]

theorem KeptChunks.view_third (s : KeptChunks) (chunk : List UInt8) :
    KeptChunks.view { s with third := some chunk } = s.view.take 2 chunk := by
  simp only [KeptChunks.view, SessionView.take, SessionView.mk.injEq, and_true]
  funext i
  by_cases h2 : i = 2
  · simp [h2]
  · simp [h2]

/-- Only the second and the third chunk can be lacking. -/
theorem KeptChunks.lacks_iff {s : KeptChunks} {i : UInt32} :
    s.view.Lacks keptGrid i ↔ i = 1 ∧ s.second = none ∨ i = 2 ∧ s.third = none := by
  constructor
  · rintro ⟨hlt, hnone⟩
    by_cases h0 : i = 0
    · simp [KeptChunks.view, h0] at hnone
    by_cases h1 : i = 1
    · exact .inl ⟨h1, by simpa [KeptChunks.view, h1] using hnone⟩
    by_cases h2 : i = 2
    · exact .inr ⟨h2, by simpa [KeptChunks.view, h2] using hnone⟩
    have hthree : i.toNat < 3 := hlt
    have hi0 : i.toNat ≠ 0 := fun h => h0 (UInt32.toNat_inj.mp h)
    have hi1 : i.toNat ≠ 1 := fun h => h1 (UInt32.toNat_inj.mp h)
    have hi2 : i.toNat ≠ 2 := fun h => h2 (UInt32.toNat_inj.mp h)
    omega
  · rintro (⟨rfl, hnone⟩ | ⟨rfl, hnone⟩)
    · exact ⟨by decide, hnone⟩
    · exact ⟨by decide, hnone⟩

theorem KeptChunks.mem_missing {s : KeptChunks} {i : UInt32} :
    i ∈ s.missing ↔ s.view.Lacks keptGrid i := by
  rw [KeptChunks.lacks_iff, KeptChunks.missing, List.mem_append]
  by_cases hsecond : s.second = none
  · by_cases hthird : s.third = none
    · simp [hsecond, hthird]
    · simp [hsecond, hthird]
  · by_cases hthird : s.third = none
    · simp [hsecond, hthird]
    · simp [hsecond, hthird]

/-- Four states, four bodies. -/
theorem keptBodies_status (s : KeptChunks) :
    keptBodies.status s.statusBody = .ok (keptStatus s.missing) := by
  have hsecond : keptStatusBody "1" ≠ keptStatusBody "1,2" := by decide +kernel
  have hthird : keptStatusBody "2" ≠ keptStatusBody "1,2" := by decide +kernel
  have hthird' : keptStatusBody "2" ≠ keptStatusBody "1" := by decide +kernel
  have hall : keptStatusBody "" ≠ keptStatusBody "1,2" := by decide +kernel
  have hall' : keptStatusBody "" ≠ keptStatusBody "1" := by decide +kernel
  have hall'' : keptStatusBody "" ≠ keptStatusBody "2" := by decide +kernel
  obtain ⟨time, second, third⟩ := s
  cases second with
  | none =>
      cases third with
      | none => simp only [keptBodies, KeptChunks.statusBody, KeptChunks.missing, if_true,
          List.cons_append, List.nil_append]
      | some _ =>
          simp only [keptBodies, KeptChunks.statusBody, KeptChunks.missing, if_true, hsecond,
            if_false, reduceCtorEq, List.append_nil]
  | some _ =>
      cases third with
      | none =>
          simp only [keptBodies, KeptChunks.statusBody, KeptChunks.missing, if_true, hthird, hthird',
            if_false, reduceCtorEq, List.nil_append]
      | some _ =>
          simp only [keptBodies, KeptChunks.statusBody, KeptChunks.missing, if_true, hall, hall',
            hall'', if_false, reduceCtorEq, List.nil_append]

theorem keptBodies_chunkAck_second (s : KeptChunks) (chunk : List UInt8) :
    ∃ ack, keptBodies.chunkAck (KeptChunks.ackBody "1" "0,1" { s with second := some chunk }) =
      .ok ack := by
  have hlast : keptAckBody "1" "0,1,2" "0" "true" ≠ keptAckBody "1" "0,1" "1" "false" := by
    decide +kernel
  obtain ⟨time, second, third⟩ := s
  cases third with
  | none =>
      refine ⟨⟨1, 1, false⟩, ?_⟩
      simp only [keptBodies, KeptChunks.ackBody, if_true]
  | some _ =>
      refine ⟨⟨1, 0, true⟩, ?_⟩
      simp only [keptBodies, KeptChunks.ackBody, if_true, hlast, if_false]

theorem keptBodies_chunkAck_third (s : KeptChunks) (chunk : List UInt8) :
    ∃ ack, keptBodies.chunkAck (KeptChunks.ackBody "2" "0,2" { s with third := some chunk }) =
      .ok ack := by
  have hone : keptAckBody "2" "0,2" "1" "false" ≠ keptAckBody "1" "0,1" "1" "false" := by
    decide +kernel
  have hone' : keptAckBody "2" "0,2" "1" "false" ≠ keptAckBody "1" "0,1,2" "0" "true" := by
    decide +kernel
  have hlast : keptAckBody "2" "0,1,2" "0" "true" ≠ keptAckBody "1" "0,1" "1" "false" := by
    decide +kernel
  have hlast' : keptAckBody "2" "0,1,2" "0" "true" ≠ keptAckBody "1" "0,1,2" "0" "true" := by
    decide +kernel
  have hlast'' : keptAckBody "2" "0,1,2" "0" "true" ≠ keptAckBody "2" "0,2" "1" "false" := by
    decide +kernel
  obtain ⟨time, second, third⟩ := s
  cases second with
  | none =>
      refine ⟨⟨2, 1, false⟩, ?_⟩
      simp only [keptBodies, KeptChunks.ackBody, if_true, hone, hone', if_false]
  | some _ =>
      refine ⟨⟨2, 0, true⟩, ?_⟩
      simp only [keptBodies, KeptChunks.ackBody, if_true, hlast, hlast', hlast'', if_false]

theorem keepsSession_keeping : KeepsSession completionJson keptBodies keptSha256 keepingHost
    keepingConfig KeptChunks.time keptGrid keptSource "ar://x" KeptChunks.view where
  chunk := by
    intro s i hlacks answer s' hsend
    rcases KeptChunks.lacks_iff.mp hlacks with ⟨rfl, -⟩ | ⟨rfl, -⟩
    · have hput : s.put (chunkUrl keepingConfig "s" 1) (.bytes (keptGrid.piece keptSource 1)) =
          (answer, s') := hsend
      rw [KeptChunks.put, if_pos (by decide +kernel)] at hput
      cases hput
      obtain ⟨ack, hack⟩ := keptBodies_chunkAck_second s (keptGrid.piece keptSource 1)
      exact KeptChunks.view_second s _ ▸ .taken rfl hack
    · have hput : s.put (chunkUrl keepingConfig "s" 2) (.bytes (keptGrid.piece keptSource 2)) =
          (answer, s') := hsend
      rw [KeptChunks.put, if_neg (by decide +kernel), if_pos (by decide +kernel)] at hput
      cases hput
      obtain ⟨ack, hack⟩ := keptBodies_chunkAck_third s (keptGrid.piece keptSource 2)
      exact KeptChunks.view_third s _ ▸ .taken rfl hack
  completion := by
    intro s key hcomplete hopen answer s' hsend
    cases hsend
    exact @CompletionAnswer.completed completionJson "ar://x" _ _ _
      (.object [("uri", .string "ar://x")]) rfl rfl rfl
  status := by
    intro s hopen
    have hopened : (keptStatus s.missing).state ∉
        ["completed", "failed", "expired", "assembling"] := by
      show "open" ∉ ["completed", "failed", "expired", "assembling"]
      decide
    have hnodup : s.missing.Nodup := by
      rw [KeptChunks.missing]
      split <;> split <;> decide
    exact ⟨_, keptStatus s.missing, s, rfl, rfl, keptBodies_status s,
      ⟨rfl, rfl, rfl, rfl, hopened, hnodup, fun i => KeptChunks.mem_missing⟩, rfl⟩
  attempt := by
    intro s attemptId settlesBy hattempt
    cases hattempt

theorem leavesSession_keeping : LeavesSession keepingHost keptInput KeptChunks.view where
  refl := fun _ => rfl
  trans := fun _ _ _ h h' => h'.trans h
  now := fun _ => rfl
  sleep := fun _ _ => rfl
  fileLen := fun _ _ => rfl
  fileContents := fun _ _ => rfl
  fileRead := fun _ _ _ _ => rfl
  never := by
    intro token htoken
    cases htoken
  polls := fun _ => rfl
  progress := by
    intro cb hcb
    cases hcb
  created := by
    intro cb hcb
    cases hcb

theorem KeptChunks.time_put (url : String) (body : RequestBody) (s : KeptChunks) :
    (s.put url body).2.time = s.time := by
  unfold KeptChunks.put
  split
  · rfl
  · split
    · rfl
    · rfl

theorem keepsTime_keeping : KeepsTime keepingHost keepingConfig keptInput KeptChunks.time where
  now := fun _ => ⟨le_rfl, le_rfl⟩
  sleep := fun _ _ => le_rfl
  answers := by
    intro url method headers body s
    cases method with
    | put => exact (KeptChunks.time_put url body s).ge
    | get => exact le_rfl
    | post => exact le_rfl
    | delete => exact le_rfl
  poll := by
    intro poll hpoll
    cases hpoll

theorem sound_keeping (time : ℕ) : (KeptChunks.view ⟨time, none, none⟩).Sound keptGrid keptSource where
  held := by
    intro i hi
    by_cases h0 : i = 0
    · right
      rw [h0]
      rfl
    · left
      simp [KeptChunks.view, h0]
  ready := rfl
  unsettled := rfl

/-- The second chunk and the short last one are stored by the session that is resumed. -/
theorem uploadResumable_stores_threeChunks : ∃ result w', ∃ chunks : List (List UInt8),
    exec (uploadResumable completionJson keptBodies keptSha256 keepingHost keepingConfig keptInput
      621) ⟨⟨0, none, none⟩, []⟩ = some (.ok result, w') ∧ result.uri = "ar://x" ∧
    chunks.flatten = [1, 2, 3, 4, 5] ∧
    ((List.range keptGrid.chunkCount.toNat).map fun i =>
      (KeptChunks.view w'.host).held (UInt32.ofNat i)) = chunks.map some :=
  uploadResumable_stores leavesSession_keeping keepsSession_keeping keepsTime_keeping
    ⟨by decide, by decide, rfl⟩ rfl (by decide) ⟨rfl, sound_keeping 0, by decide⟩

end Label309
