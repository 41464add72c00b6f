import Label309.Client.CompletionRecovery

/-!
# The ticks of an upload

The caller is told of every chunk that is acknowledged, in the order of the acknowledgements. An
upload that is watched notes these ticks beside the state of its host.
-/
namespace Label309
open Traced

/-- A host with the ticks that its caller was told. -/
structure Watched (σ : Type) where
  host : σ
  ticks : List UploadProgress

section Watch
variable {σ : Type}

/-- An operation of the host, which tells the caller nothing. -/
def watchedStep {α : Type} (f : σ → α × σ) (s : Watched σ) : α × Watched σ :=
  ((f s.host).1, { s with host := (f s.host).2 })

def watchedConfig (config : NamespaceConfig σ) : NamespaceConfig (Watched σ) where
  apiKey := config.apiKey
  baseUrl := config.baseUrl
  transport := fun url method headers body => watchedStep (config.transport url method headers body)

def watchedHost (host : UploadHost σ) : UploadHost (Watched σ) where
  now := watchedStep host.now
  sleep := fun t s => { s with host := host.sleep t s.host }
  fileLen := fun p => watchedStep (host.fileLen p)
  fileContents := fun p => watchedStep (host.fileContents p)
  fileRead := fun p offset want => watchedStep (host.fileRead p offset want)

/-- The callbacks of the caller, with every tick noted. -/
def watchedInput (input : ResumableUploadInput σ) : ResumableUploadInput (Watched σ) where
  target := input.target
  source := input.source
  contentType := input.contentType
  thresholdBytes := input.thresholdBytes
  chunkBytes := input.chunkBytes
  resumeSessionId := input.resumeSessionId
  idempotencyKey := input.idempotencyKey
  onProgress := some fun tick s =>
    { host := (input.onProgress.elim id fun cb => cb tick) s.host, ticks := s.ticks ++ [tick] }
  cancel := input.cancel.map watchedStep
  onSessionCreated := input.onSessionCreated.map fun cb sid s => { s with host := cb sid s.host }

end Watch

/-- A chunk that the gateway acknowledges. -/
def acknowledges (bodies : UploadBodies) (e : Exchange) : Bool :=
  e.method = .put &&
    match e.answer with
    | .ok response =>
        isSuccess response.status && (bodies.chunkAck response.body).toOption.isSome
    | .error _ => false

/-- Where the chunks of the acknowledgements were sent, in order. -/
def acknowledgedUrls (bodies : UploadBodies) (log : List Exchange) : List String :=
  (log.filter (acknowledges bodies)).map Exchange.url

@[simp] theorem acknowledgedUrls_append (bodies : UploadBodies) (log log' : List Exchange) :
    acknowledgedUrls bodies (log ++ log') =
      acknowledgedUrls bodies log ++ acknowledgedUrls bodies log' := by
  rw [acknowledgedUrls, List.filter_append, List.map_append]
  rfl

/-- What the caller is told of each chunk, when so many bytes are acknowledged before. -/
def progressTicks (session : SessionGrid) : UInt64 → List UInt32 → List UploadProgress
  | _, [] => []
  | bytesAcked, index :: rest =>
      let bytesAcked := max (chunkSpanBytes session (saturatingSucc32 index)) bytesAcked
      { bytesSent := bytesAcked
        totalBytes := session.totalBytes
        chunkIndex := index
        chunksTotal := session.chunkCount } :: progressTicks session bytesAcked rest

/-- The bytes that are acknowledged after the chunks. -/
def ackedAfter (session : SessionGrid) (bytesAcked : UInt64) (indices : List UInt32) : UInt64 :=
  indices.foldl (fun acc index => max (chunkSpanBytes session (saturatingSucc32 index)) acc)
    bytesAcked

@[simp] theorem map_chunkIndex_progressTicks (session : SessionGrid) (bytesAcked : UInt64)
    (indices : List UInt32) :
    (progressTicks session bytesAcked indices).map UploadProgress.chunkIndex = indices := by
  induction indices generalizing bytesAcked with
  | nil => rfl
  | cons index rest ih => rw [progressTicks, List.map_cons, ih]

theorem progressTicks_append (session : SessionGrid) (bytesAcked : UInt64)
    (indices indices' : List UInt32) :
    progressTicks session bytesAcked (indices ++ indices') =
      progressTicks session bytesAcked indices ++
        progressTicks session (ackedAfter session bytesAcked indices) indices' := by
  induction indices generalizing bytesAcked with
  | nil => rfl
  | cons index rest ih =>
      rw [List.cons_append, progressTicks, progressTicks, ih, List.cons_append]
      rfl

theorem chunkSpanBytes_le (session : SessionGrid) (n : UInt32) :
    (chunkSpanBytes session n).toNat ≤ session.totalBytes.toNat := by
  rw [chunkSpanBytes, UInt64.toNat_min]
  exact min_le_right _ _

theorem max_chunkSpanBytes_total (session : SessionGrid) (n : UInt32) :
    max (chunkSpanBytes session n) session.totalBytes = session.totalBytes := by
  apply UInt64.toNat_inj.mp
  rw [UInt64.toNat_max, max_eq_right (chunkSpanBytes_le session n)]

/-- Once all bytes are acknowledged, every tick reports them all. -/
theorem progressTicks_total (session : SessionGrid) (indices : List UInt32) :
    ∀ tick ∈ progressTicks session session.totalBytes indices,
      tick.bytesSent = session.totalBytes := by
  induction indices with
  | nil => exact nofun
  | cons index rest ih =>
      rw [progressTicks, max_chunkSpanBytes_total]
      exact List.forall_mem_cons.mpr ⟨rfl, ih⟩

theorem ackedAfter_total (session : SessionGrid) (indices : List UInt32) :
    ackedAfter session session.totalBytes indices = session.totalBytes := by
  induction indices with
  | nil => rfl
  | cons index rest ih =>
      rw [ackedAfter, List.foldl_cons, max_chunkSpanBytes_total]
      exact ih

section Steps
variable {σ : Type} {json : JsonPrimitives} {bodies : UploadBodies} {sha256 : List UInt8 → Digest}
  {host : UploadHost σ} {config : NamespaceConfig σ} {input : ResumableUploadInput σ}
  {session : SessionGrid} {sid : String} {w w' w'' : World (Watched σ) Exchange}
  {P : UploadProgress → Prop}

/-- The run tells the caller these ticks, and chunks that were sent there are acknowledged. -/
structure Extends (bodies : UploadBodies) (ticks : List UploadProgress) (urls : List String)
    (w w' : World (Watched σ) Exchange) : Prop where
  told : w'.host.ticks = w.host.ticks ++ ticks
  acknowledged : ∃ log, w'.log = w.log ++ log ∧ acknowledgedUrls bodies log = urls

theorem Extends.append {ticks ticks' : List UploadProgress} {urls urls' : List String}
    (h : Extends bodies ticks urls w w') (h' : Extends bodies ticks' urls' w' w'') :
    Extends bodies (ticks ++ ticks') (urls ++ urls') w w'' := by
  obtain ⟨log, hlog, hacks⟩ := h.acknowledged
  obtain ⟨log', hlog', hacks'⟩ := h'.acknowledged
  refine ⟨by rw [h'.told, h.told, List.append_assoc], log ++ log', ?_, ?_⟩
  · rw [hlog', hlog, List.append_assoc]
  · rw [acknowledgedUrls_append, hacks, hacks']

/-- Nothing is told, and no chunk acknowledged. -/
abbrev TellsNothing (bodies : UploadBodies) :
    World (Watched σ) Exchange → World (Watched σ) Exchange → Prop :=
  Extends bodies [] []

/-- The run tells the caller these ticks, one for each acknowledgement. -/
def Tells (bodies : UploadBodies) (config : NamespaceConfig σ) (sid : String)
    (ticks : List UploadProgress) : World (Watched σ) Exchange → World (Watched σ) Exchange → Prop :=
  Extends bodies ticks (ticks.map fun tick => chunkUrl config sid tick.chunkIndex)

theorem Tells.append {ticks ticks' : List UploadProgress} (h : Tells bodies config sid ticks w w')
    (h' : Tells bodies config sid ticks' w' w'') :
    Tells bodies config sid (ticks ++ ticks') w w'' := by
  rw [Tells, List.map_append]
  exact Extends.append h h'

/-- Every tick that is told is of a kind. -/
def TellsOnly (bodies : UploadBodies) (config : NamespaceConfig σ) (sid : String)
    (P : UploadProgress → Prop) (w w' : World (Watched σ) Exchange) : Prop :=
  ∃ ticks, Tells bodies config sid ticks w w' ∧ ∀ tick ∈ ticks, P tick

theorem tellsNothing_of_eq (hticks : w'.host.ticks = w.host.ticks) (hlog : w'.log = w.log) :
    TellsNothing bodies w w' :=
  ⟨by rw [hticks, List.append_nil], [], by rw [hlog, List.append_nil], rfl⟩

theorem Extends.tellsOnly (h : TellsNothing bodies w w') : TellsOnly bodies config sid P w w' :=
  ⟨[], h, nofun⟩

theorem keeps_tellsNothing : Keeps (TellsNothing (σ := σ) bodies) where
  refl := fun _ => tellsNothing_of_eq rfl rfl
  trans := fun _ _ _ => Extends.append

theorem keeps_tellsOnly (P : UploadProgress → Prop) : Keeps (TellsOnly bodies config sid P) where
  refl := fun _ => (tellsNothing_of_eq rfl rfl).tellsOnly
  trans := by
    intro a b c h h'
    obtain ⟨ticks, htells, hall⟩ := h
    obtain ⟨ticks', htells', hall'⟩ := h'
    exact ⟨ticks ++ ticks', htells.append htells', List.forall_mem_append.mpr ⟨hall, hall'⟩⟩

theorem hostKeeps_tellsNothing : HostKeeps (watchedHost host) (TellsNothing bodies) where
  toKeeps := keeps_tellsNothing
  now := fun _ => tellsNothing_of_eq rfl rfl
  sleep := fun _ _ => tellsNothing_of_eq rfl rfl
  fileLen := fun _ _ => tellsNothing_of_eq rfl rfl
  fileContents := fun _ _ => tellsNothing_of_eq rfl rfl
  fileRead := fun _ _ _ _ => tellsNothing_of_eq rfl rfl

theorem callerKeeps_tellsNothing : CallerKeeps (watchedInput input) (TellsNothing bodies) where
  toKeeps := keeps_tellsNothing
  poll := by
    intro poll hpoll w
    obtain ⟨poll', -, heq⟩ := Option.map_eq_some_iff.mp hpoll
    rw [← heq]
    exact tellsNothing_of_eq rfl rfl

theorem hostKeeps_tellsOnly (P : UploadProgress → Prop) :
    HostKeeps (watchedHost host) (TellsOnly bodies config sid P) where
  toKeeps := keeps_tellsOnly P
  now := fun w => (hostKeeps_tellsNothing.now w).tellsOnly
  sleep := fun t w => (hostKeeps_tellsNothing.sleep t w).tellsOnly
  fileLen := fun p w => (hostKeeps_tellsNothing.fileLen p w).tellsOnly
  fileContents := fun p w => (hostKeeps_tellsNothing.fileContents p w).tellsOnly
  fileRead := fun p offset want w =>
    (hostKeeps_tellsNothing.fileRead p offset want w).tellsOnly

theorem callerKeeps_tellsOnly (P : UploadProgress → Prop) :
    CallerKeeps (watchedInput input) (TellsOnly bodies config sid P) where
  toKeeps := keeps_tellsOnly P
  poll := fun poll hpoll w => (callerKeeps_tellsNothing.poll poll hpoll w).tellsOnly

/-- A request that sends no chunk. -/
theorem tellsNothing_sendRaw {url : String} {method : HttpMethod} (hmethod : method ≠ .put)
    (headers : List (String × String)) (body : RequestBody) :
    Within (TellsNothing bodies) (sendRaw (watchedConfig config) url method headers body) := by
  apply Within.ofStep
  intro w
  refine ⟨(List.append_nil _).symm, _, rfl, ?_⟩
  simp [acknowledgedUrls, acknowledges, hmethod]

theorem tellsOnly_sendRaw (P : UploadProgress → Prop) {url : String} {method : HttpMethod}
    (hmethod : method ≠ .put) (headers : List (String × String)) (body : RequestBody) :
    Within (TellsOnly bodies config sid P)
      (sendRaw (watchedConfig config) url method headers body) :=
  Within.mono (fun _ _ => Extends.tellsOnly) (tellsNothing_sendRaw hmethod headers body)

/-! ## Chunks -/

/-- One request is sent, whatever it is. -/
theorem extends_sendRaw (bodies : UploadBodies) {url : String} {method : HttpMethod}
    {headers : List (String × String)} {body : RequestBody} {r : Except ResumableUploadError ClientResponse}
    (hrun : exec (viaHttp (sendRaw (watchedConfig config) url method headers body)) w =
      some (r, w')) :
    ∃ answer, (r = answer.mapError fun e => .http (.outbound e)) ∧
      Extends bodies [] (acknowledgedUrls bodies [⟨url, method, headers, body, answer⟩]) w w' := by
  obtain ⟨answer, hlog, hr⟩ := exec_viaHttp_sendRaw hrun
  have hticks : Within (fun w w' : World (Watched σ) Exchange => w'.host.ticks = w.host.ticks)
      (viaHttp (sendRaw (watchedConfig config) url method headers body)) := by
    apply Within.mapError
    apply Within.ofStep
    intro w
    rfl
  exact ⟨answer, hr, by rw [hticks _ _ _ hrun, List.append_nil], _, hlog, rfl⟩

/-- A chunk is acknowledged by the last of its attempts, or it is not sent. -/
theorem extends_putChunkAttempts {url : String} {index : UInt32} {chunk : List UInt8} (n : ℕ)
    (last : Option ResumableUploadError) {r : Except ResumableUploadError UploadSessionChunkAck}
    (hrun : exec (putChunkAttempts json bodies sha256 (watchedConfig config) (watchedInput input)
      url index chunk n last) w = some (r, w')) :
    Extends bodies [] (r.toOption.toList.map fun _ => url) w w' := by
  induction n generalizing last w with
  | zero =>
      cases hrun
      exact keeps_tellsNothing.refl _
  | succ n ih =>
      rcases exec_bind_cases hrun with ⟨e, hpoll, hr⟩ | ⟨cancelled, w1, hpoll, hrest⟩
      · rw [hr]
        exact callerKeeps_tellsNothing.isCancelled _ _ _ hpoll
      have hpolled : TellsNothing bodies w w1 := callerKeeps_tellsNothing.isCancelled _ _ _ hpoll
      cases cancelled with
      | true =>
          cases hrest
          exact hpolled
      | false =>
          rw [if_neg Bool.false_ne_true] at hrest
          rcases exec_bind_cases hrest with ⟨e, hsend, hr⟩ | ⟨response, w2, hsend, hanswer⟩
          · obtain ⟨answer, hfirst, hsent⟩ := extends_sendRaw bodies hsend
            rw [hr]
            cases answer with
            | ok response => cases hfirst
            | error e => exact hpolled.append (by simpa [acknowledgedUrls, acknowledges] using hsent)
          obtain ⟨answer, hfirst, hsent⟩ := extends_sendRaw bodies hsend
          cases answer with
          | error e => cases hfirst
          | ok response =>
            cases hfirst
            rcases @throwIfNotOk_cases json response with ⟨hsuccess, hok⟩ | ⟨hfail, hbad⟩
            · rw [hok] at hanswer
              have hparsed : some ((bodies.chunkAck response.body).mapError .decode, w2) =
                  some (r, w') := by
                rw [← hanswer]
                exact (exec_parseBody _ _ _).symm
              cases hparsed
              refine hpolled.append ?_
              cases hbody : bodies.chunkAck response.body <;>
                simpa [acknowledgedUrls, acknowledges, hsuccess, hbody, Except.toOption,
                  Except.mapError] using hsent
            · rw [hbad] at hanswer
              have hunsent : TellsNothing bodies w1 w2 := by
                simpa [acknowledgedUrls, acknowledges, hfail] using hsent
              dsimp only at hanswer
              by_cases hterminal : isTerminalChunkError
                  (.http (.http (parseHttpError json response))) = true
              · rw [if_pos hterminal] at hanswer
                cases hanswer
                exact hpolled.append hunsent
              · rw [if_neg hterminal] at hanswer
                exact (hpolled.append hunsent).append (ih _ hanswer)

/-- The chunks that are acknowledged are the first of those that are missing, and the caller is told
of each. -/
theorem tells_sendMissingChunks (missing : List UInt32) (bytesAcked : UInt64)
    {r : Except ResumableUploadError UInt64}
    (hrun : exec (sendMissingChunks json bodies sha256 (watchedHost host) (watchedConfig config)
      (watchedInput input) session missing bytesAcked) w = some (r, w')) :
    ∃ sent, sent <+: missing ∧
      Tells bodies config session.sessionId (progressTicks session bytesAcked sent) w w' ∧
      ∀ acked, r = .ok acked → sent = missing ∧ acked = ackedAfter session bytesAcked missing := by
  induction missing generalizing bytesAcked w with
  | nil =>
      cases hrun
      refine ⟨[], List.prefix_rfl, keeps_tellsNothing.refl _, ?_⟩
      intro acked hok
      cases hok
      exact ⟨rfl, rfl⟩
  | cons index missing ih =>
      have hstop : ∀ {w1 : World (Watched σ) Exchange} {e}, TellsNothing bodies w w1 →
          r = .error e → w1 = w' → ∃ sent, sent <+: index :: missing ∧
            Tells bodies config session.sessionId (progressTicks session bytesAcked sent) w w' ∧
            ∀ acked, r = .ok acked → sent = index :: missing ∧
              acked = ackedAfter session bytesAcked (index :: missing) := by
        intro w1 e hnothing hr hw
        refine ⟨[], List.nil_prefix, hw ▸ hnothing, ?_⟩
        intro acked hok
        rw [hr] at hok
        cases hok
      rcases exec_bind_cases hrun with ⟨e, hpoll, hr⟩ | ⟨cancelled, w1, hpoll, hrest⟩
      · exact hstop (callerKeeps_tellsNothing.isCancelled _ _ _ hpoll) hr rfl
      have hpolled : TellsNothing bodies w w1 := callerKeeps_tellsNothing.isCancelled _ _ _ hpoll
      cases cancelled with
      | true =>
          cases hrest
          exact hstop hpolled rfl rfl
      | false =>
        rw [if_neg Bool.false_ne_true] at hrest
        rcases exec_bind_cases hrest with ⟨e, hread, hr⟩ | ⟨chunk, w2, hread, hput⟩
        · exact hstop (hpolled.append (hostKeeps_tellsNothing.readChunk _ _ _ _ _ _ _ hread)) hr rfl
        have hreading := hpolled.append (hostKeeps_tellsNothing.readChunk _ _ _ _ _ _ _ hread)
        rcases exec_bind_cases hput with ⟨e, hsend, hr⟩ | ⟨ack, w3, hsend, htick⟩
        · exact hstop (hreading.append (extends_putChunkAttempts _ _ hsend)) hr rfl
        have hacked := hreading.append (extends_putChunkAttempts _ _ hsend)
        rcases exec_bind_cases htick with ⟨e, hreport, hr⟩ | ⟨u, w4, hreport, hagain⟩
        · cases hreport
        have hreported : Extends bodies [⟨max (chunkSpanBytes session (saturatingSucc32 index))
            bytesAcked, session.totalBytes, index, session.chunkCount⟩] [] w3 w4 := by
          cases hreport
          exact ⟨rfl, [], (List.append_nil _).symm, rfl⟩
        obtain ⟨sent, hsent, htells, hend⟩ := ih _ hagain
        refine ⟨index :: sent, (List.prefix_cons_inj index).mpr hsent, ?_, ?_⟩
        · exact (hacked.append hreported).append htells
        · intro acked hok
          obtain ⟨hall, hvalue⟩ := hend acked hok
          exact ⟨by rw [hall], hvalue⟩

/-! ## The whole upload -/

/-- Once all bytes are acknowledged, completing the session reports them all. -/
theorem tellsOnly_completeSession (fuel : ℕ) {bytesAcked : UInt64} {Q : Prop}
    (hacked : Q → bytesAcked = session.totalBytes) :
    Within (TellsOnly bodies config session.sessionId fun tick =>
        Q → tick.bytesSent = session.totalBytes)
      (completeSession json bodies sha256 (watchedHost host) (watchedConfig config)
        (watchedInput input) fuel session bytesAcked) := by
  apply HostKeeps.completeAttempts (P := fun acked => Q → acked = session.totalBytes)
    (hostKeeps_tellsOnly _) (callerKeeps_tellsOnly _)
  · exact fun _ => tellsOnly_sendRaw _ (by decide) _ _
  · exact tellsOnly_sendRaw _ (by decide)
  · exact fun _ => tellsOnly_sendRaw _ (by decide)
  · intro missing acked hacked w r w' hrun
    obtain ⟨sent, -, htells, -⟩ := tells_sendMissingChunks missing acked hrun
    refine ⟨_, htells, ?_⟩
    intro tick htick hq
    rw [hacked hq] at htick
    exact progressTicks_total session sent tick htick
  · intro missing acked hacked w value w' hrun hq
    obtain ⟨sent, -, -, hend⟩ := tells_sendMissingChunks missing acked hrun
    rw [(hend value rfl).2, hacked hq, ackedAfter_total]
  · exact hacked

theorem tellsNothing_abandonSession :
    Within (TellsNothing bodies) (abandonSession json (watchedConfig config) sid) :=
  keeps_tellsNothing.abandonSession (tellsNothing_sendRaw (by decide))

/-- The ticks of an upload: those of the missing chunks, up to a failure, and then those of the
chunks that are sent again. -/
theorem tells_driveSession {fuel : ℕ} {r : Except ResumableUploadError ResumableUploadResult}
    (hrun : exec (driveSession json bodies sha256 (watchedHost host) (watchedConfig config)
      (watchedInput input) fuel session) w = some (r, w')) :
    ∃ sent again, sent <+: session.missing ∧ (again ≠ [] → sent = session.missing) ∧
      Tells bodies config session.sessionId
        (progressTicks session (ackedBytes session) sent ++ again) w w' ∧
      (ackedAfter session (ackedBytes session) session.missing = session.totalBytes →
        ∀ tick ∈ again, tick.bytesSent = session.totalBytes) := by
  rcases exec_bind_cases hrun with ⟨e, hsend, -⟩ | ⟨acked, w1, hsend, hcomplete⟩
  · obtain ⟨first, w2, hfirst, hend⟩ := exec_orAbandon hsend
    obtain ⟨sent, hsent, htells, -⟩ := tells_sendMissingChunks _ _ hfirst
    refine ⟨sent, [], hsent, fun h => absurd rfl h, ?_, nofun⟩
    rcases hend with ⟨-, -, hw⟩ | ⟨-, gone, habandon, -⟩
    · rw [hw, List.append_nil]
      exact htells
    · exact htells.append (tellsNothing_abandonSession _ _ _ habandon)
  · obtain ⟨first, w2, hfirst, hend⟩ := exec_orAbandon hsend
    obtain ⟨sent, hsent, htells, hall⟩ := tells_sendMissingChunks _ _ hfirst
    rcases hend with ⟨-, hfirst, hw⟩ | ⟨-, gone, -, ⟨-, hr⟩ | ⟨source, -, hr⟩⟩
    · obtain ⟨hsame, hacked⟩ := hall acked hfirst.symm
      have hkeeps := @keeps_tellsOnly _ bodies config session.sessionId fun tick =>
        ackedAfter session (ackedBytes session) session.missing = session.totalBytes →
          tick.bytesSent = session.totalBytes
      obtain ⟨again, hagain, htotal⟩ := hkeeps.orAbandon (tellsOnly_sendRaw _ (by decide))
        (tellsOnly_completeSession fuel fun h => hacked.trans h) _ _ _ hcomplete
      rw [hw] at hagain
      exact ⟨sent, again, hsent, fun _ => hsame, htells.append hagain,
        fun h tick htick => htotal tick htick h⟩
    · cases hr
    · cases hr

end Steps

end Label309
