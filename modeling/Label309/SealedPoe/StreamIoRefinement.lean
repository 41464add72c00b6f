import Label309.SealedPoe.StreamBijection
import Label309.SealedPoe.StreamIo

/-!
# The drivers refine the buffered functions

What a driver writes and returns is fixed by the bytes that the reader delivers, however
they are cut into reads. A run that is cancelled, or whose writer fails, stops with an
error after a prefix of it.
-/
namespace Label309
open Chunks

/-! ## Runs over a host -/

/-- Between two states of a run the caller cancelled or the writer failed. -/
def Host.Disturbed (before after : Host) : Prop :=
  (∃ cancel, before.cancel = some cancel ∧
    ∃ i, before.asked ≤ i ∧ i < after.asked ∧ cancel i = true) ∨
  ∃ i, before.calls ≤ i ∧ i < after.calls ∧ before.fault i ≠ none

/-- The host's closures stay, and its counters grow. -/
structure Host.Follows (before after : Host) : Prop where
  cancel : after.cancel = before.cancel
  fault : after.fault = before.fault
  asked : before.asked ≤ after.asked
  calls : before.calls ≤ after.calls

/-- An undisturbed run writes `out` and returns `result`; a disturbed one fails with a host
error after writing a prefix of `out`. -/
def Emits {α : Type} (m : Drive α) (out : List UInt8) (result : Except Abort α) : Prop :=
  ∀ host : Host, host.Follows (m host).2 ∧
    ((¬ host.Disturbed (m host).2 ∧ (m host).1 = result ∧
        (m host).2.written = host.written ++ out) ∨
      (host.Disturbed (m host).2 ∧
        (∃ e : EciesSealedPoeError, (m host).1 = .error (.error e) ∧
          (e.code = .cancelled ∨ e.code = .ioError)) ∧
        ∃ before, before <+: out ∧ (m host).2.written = host.written ++ before))

theorem Host.Follows.refl (host : Host) : host.Follows host := ⟨rfl, rfl, le_refl _, le_refl _⟩

theorem Host.Follows.trans {a b c : Host} (hab : a.Follows b) (hbc : b.Follows c) :
    a.Follows c :=
  ⟨hbc.cancel.trans hab.cancel, hbc.fault.trans hab.fault, hab.asked.trans hbc.asked,
    hab.calls.trans hbc.calls⟩

theorem Host.not_disturbed_refl (host : Host) : ¬ host.Disturbed host := by
  intro h
  rcases h with ⟨_, _, i, hle, hlt, _⟩ | ⟨i, hle, hlt, _⟩
  · omega
  · omega

/-- A run in two parts is disturbed when one of them is. -/
theorem Host.disturbed_trans {a b c : Host} (hab : a.Follows b) (hbc : b.Follows c) :
    a.Disturbed c ↔ a.Disturbed b ∨ b.Disturbed c := by
  have hcancel := hab.cancel
  have hfault := hab.fault
  have hasked := hab.asked
  have hcalls := hab.calls
  have hasked' := hbc.asked
  have hcalls' := hbc.calls
  constructor
  · intro h
    rcases h with ⟨cancel, hc, i, hle, hlt, htrue⟩ | ⟨i, hle, hlt, hfail⟩
    · by_cases hi : i < b.asked
      · exact .inl (.inl ⟨cancel, hc, i, hle, hi, htrue⟩)
      · exact .inr (.inl ⟨cancel, hcancel.trans hc, i, by omega, hlt, htrue⟩)
    · by_cases hi : i < b.calls
      · exact .inl (.inr ⟨i, hle, hi, hfail⟩)
      · exact .inr (.inr ⟨i, by omega, hlt, by rwa [hfault]⟩)
  · intro h
    rcases h with (⟨cancel, hc, i, hle, hlt, htrue⟩ | ⟨i, hle, hlt, hfail⟩) |
      (⟨cancel, hc, i, hle, hlt, htrue⟩ | ⟨i, hle, hlt, hfail⟩)
    · exact .inl ⟨cancel, hc, i, hle, by omega, htrue⟩
    · exact .inr ⟨i, hle, by omega, hfail⟩
    · exact .inl ⟨cancel, hcancel ▸ hc, i, by omega, hlt, htrue⟩
    · exact .inr ⟨i, by omega, hlt, by rwa [hfault] at hfail⟩

theorem Emits.pure {α : Type} (a : α) : Emits (Drive.pure a) [] (.ok a) := by
  intro host
  exact ⟨.refl host, .inl ⟨host.not_disturbed_refl, rfl, (List.append_nil _).symm⟩⟩

/-- Sequencing joins the outputs. -/
theorem Emits.bind {α β : Type} {m : Drive α} {f : α → Drive β} {out out' : List UInt8} {a : α}
    {result : Except Abort β} (hm : Emits m out (.ok a)) (hf : Emits (f a) out' result) :
    Emits (Drive.bind m f) (out ++ out') result := by
  intro host
  obtain ⟨hfollows, hcase⟩ := hm host
  rcases hcase with ⟨hquiet, hresult, hwritten⟩ | ⟨hdisturbed, ⟨e, he, hcode⟩, before, hbefore, hwritten⟩
  · have hrun : Drive.bind m f host = f a (m host).2 := by
      rw [Drive.bind, ← Prod.mk.eta (p := m host), hresult]
    obtain ⟨hfollows', hcase'⟩ := hf (m host).2
    rw [hrun]
    refine ⟨hfollows.trans hfollows', ?_⟩
    rw [Host.disturbed_trans hfollows hfollows']
    rcases hcase' with ⟨hquiet', hresult', hwritten'⟩ |
      ⟨hdisturbed', herror, before, hbefore, hwritten'⟩
    · left
      refine ⟨by tauto, hresult', ?_⟩
      rw [hwritten', hwritten, List.append_assoc]
    · right
      refine ⟨.inr hdisturbed', herror, out ++ before, (List.prefix_append_right_inj out).mpr hbefore, ?_⟩
      rw [hwritten', hwritten, List.append_assoc]
  · have hrun : Drive.bind m f host = (.error (.error e), (m host).2) := by
      rw [Drive.bind, ← Prod.mk.eta (p := m host), he]
    rw [hrun]
    exact ⟨hfollows, .inr ⟨hdisturbed, ⟨e, rfl, hcode⟩, before,
      hbefore.trans (List.prefix_append _ _), hwritten⟩⟩

/-- A step that counts one more cancellation check. -/
theorem Host.asked_step (host : Host) {cancel : ℕ → Bool} (hcancel : host.cancel = some cancel) :
    host.Follows { host with asked := host.asked + 1 } ∧
      (host.Disturbed { host with asked := host.asked + 1 } ↔ cancel host.asked = true) := by
  refine ⟨⟨rfl, rfl, Nat.le_succ _, le_refl _⟩, ?_, ?_⟩
  · intro h
    rcases h with ⟨cancel', hc, i, hle, hlt, htrue⟩ | ⟨i, hle, hlt, _⟩
    · have hi : i = host.asked := by
        dsimp only at hlt
        omega
      rw [hcancel] at hc
      cases hc
      rwa [hi] at htrue
    · dsimp only at hlt
      omega
  · intro htrue
    exact .inl ⟨cancel, hcancel, host.asked, le_refl _, Nat.lt_succ_self _, htrue⟩

/-- A step that counts one more `write_all`. -/
theorem Host.called_step (host : Host) (written : List UInt8) :
    host.Follows { host with written := written, calls := host.calls + 1 } ∧
      (host.Disturbed { host with written := written, calls := host.calls + 1 } ↔
        host.fault host.calls ≠ none) := by
  refine ⟨⟨rfl, rfl, le_refl _, Nat.le_succ _⟩, ?_, ?_⟩
  · intro h
    rcases h with ⟨_, _, i, hle, hlt, _⟩ | ⟨i, hle, hlt, hfail⟩
    · dsimp only at hlt
      omega
    · have hi : i = host.calls := by
        dsimp only at hlt
        omega
      rwa [hi] at hfail
  · intro hfail
    exact .inr ⟨host.calls, le_refl _, Nat.lt_succ_self _, hfail⟩

theorem Emits.checkCancel : Emits checkCancel [] (.ok ()) := by
  intro host
  cases hcancel : host.cancel with
  | none =>
      have hrun : Label309.checkCancel host = (.ok (), host) := by
        simp only [Label309.checkCancel, hcancel]
      rw [hrun]
      exact ⟨.refl host, .inl ⟨host.not_disturbed_refl, rfl, (List.append_nil _).symm⟩⟩
  | some cancel =>
      obtain ⟨hfollows, hdisturbed⟩ := host.asked_step hcancel
      by_cases htrue : cancel host.asked = true
      · have hrun : Label309.checkCancel host =
            (.error (.error ⟨.cancelled, "the streaming operation was cancelled by the caller"⟩),
              { host with asked := host.asked + 1 }) := by
          rw [Label309.checkCancel, hcancel]
          exact if_pos htrue
        rw [hrun]
        exact ⟨hfollows, .inr ⟨hdisturbed.mpr htrue, ⟨_, rfl, .inl rfl⟩, [], List.nil_prefix,
          (List.append_nil _).symm⟩⟩
      · have hrun : Label309.checkCancel host = (.ok (), { host with asked := host.asked + 1 }) := by
          rw [Label309.checkCancel, hcancel]
          exact if_neg htrue
        rw [hrun]
        exact ⟨hfollows, .inl ⟨fun h => htrue (hdisturbed.mp h), rfl, (List.append_nil _).symm⟩⟩

theorem Emits.writeAll (bytes : List UInt8) : Emits (writeAll bytes) bytes (.ok ()) := by
  intro host
  cases hfault : host.fault host.calls with
  | none =>
      have hrun : Label309.writeAll bytes host =
          (.ok (), { host with written := host.written ++ bytes, calls := host.calls + 1 }) := by
        simp only [Label309.writeAll, hfault]
      obtain ⟨hfollows, hdisturbed⟩ := host.called_step (host.written ++ bytes)
      rw [hrun]
      exact ⟨hfollows, .inl ⟨fun h => hdisturbed.mp h hfault, rfl, rfl⟩⟩
  | some failure =>
      have hrun : Label309.writeAll bytes host =
          (.error (.error ⟨.ioError, "writing the stream failed: " ++ failure.2⟩),
            { host with
              written := host.written ++ bytes.take failure.1, calls := host.calls + 1 }) := by
        simp only [Label309.writeAll, hfault]
      obtain ⟨hfollows, hdisturbed⟩ := host.called_step (host.written ++ bytes.take failure.1)
      rw [hrun]
      exact ⟨hfollows, .inr ⟨hdisturbed.mpr (by rw [hfault]; simp), ⟨_, rfl, .inr rfl⟩,
        bytes.take failure.1, List.take_prefix _ _, rfl⟩⟩

/-- A part that writes nothing. -/
theorem Emits.bind_nil {α β : Type} {m : Drive α} {f : α → Drive β} {out : List UInt8} {a : α}
    {result : Except Abort β} (hm : Emits m [] (.ok a)) (hf : Emits (f a) out result) :
    Emits (Drive.bind m f) out result := by
  simpa using hm.bind hf

/-- A part after which nothing is written. -/
theorem Emits.bind_last {α β : Type} {m : Drive α} {f : α → Drive β} {out : List UInt8} {a : α}
    {result : Except Abort β} (hm : Emits m out (.ok a)) (hf : Emits (f a) [] result) :
    Emits (Drive.bind m f) out result := by
  simpa using hm.bind hf

/-! ## Readers -/

/-- The reader delivers the bytes: in reads of any sizes, with interruptions between them,
and the end after the last byte. -/
inductive Delivers : Reader → List UInt8 → Prop
  | done : Delivers [] []
  | interrupted {events : Reader} {bytes : List UInt8} (h : Delivers events bytes) :
      Delivers (.interrupted :: events) bytes
  | data {events : Reader} {read bytes : List UInt8} (hne : read ≠ []) (h : Delivers events bytes) :
      Delivers (.data read :: events) (read ++ bytes)

theorem readFullChunk_zero (reader : Reader) : readFullChunk reader 0 = .ok ([], reader) := by
  cases reader with
  | nil => rfl
  | cons event events =>
      cases event with
      | data bytes => rw [readFullChunk, if_pos rfl]
      | interrupted => rw [readFullChunk, if_pos rfl]
      | failed message => rw [readFullChunk, if_pos rfl]

/-- Filling a buffer takes the next bytes, as many as fit or as there are. -/
theorem readFullChunk_of_delivers {reader : Reader} {bytes : List UInt8}
    (h : Delivers reader bytes) (capacity : ℕ) :
    ∃ rest, readFullChunk reader capacity = .ok (bytes.take capacity, rest) ∧
      Delivers rest (bytes.drop capacity) := by
  induction h generalizing capacity with
  | done => exact ⟨[], by simp [readFullChunk], by simpa using Delivers.done⟩
  | @interrupted events bytes h ih =>
      by_cases hzero : capacity = 0
      · rw [hzero, readFullChunk_zero]
        exact ⟨_, rfl, .interrupted h⟩
      · rw [readFullChunk, if_neg hzero]
        exact ih capacity
  | @data events read bytes hne h ih =>
      by_cases hzero : capacity = 0
      · rw [hzero, readFullChunk_zero]
        exact ⟨_, rfl, .data hne h⟩
      · rw [readFullChunk, if_neg hzero, if_neg hne]
        by_cases hlong : capacity < read.length
        · have hdrop : read.drop capacity ≠ [] := by
            rw [ne_eq, List.drop_eq_nil_iff]
            omega
          rw [if_pos hlong, List.take_append_of_le_length (by omega),
            List.drop_append_of_le_length (by omega)]
          exact ⟨_, rfl, .data hdrop h⟩
        · obtain ⟨rest, hread, hrest⟩ := ih (capacity - read.length)
          rw [if_neg hlong, hread, List.take_append, List.drop_append,
            List.take_of_length_le (by omega : read.length ≤ capacity),
            List.drop_of_length_le (by omega : read.length ≤ capacity), List.nil_append]
          exact ⟨rest, rfl, hrest⟩

section Drivers
variable (aead : Aead) (key : FixedBytes 32)

/-! ## Sealing -/

theorem emits_sealAndWrite {n : ℕ} {chunk : List UInt8} {last : Bool}
    (hcheck : (StreamSealer.mk key n false).check chunk last = .ok ()) :
    Emits (sealAndWrite aead ⟨key, n, false⟩ chunk last)
      (aead.encrypt key (chunkNonce n last) [] chunk) (.ok ⟨key, n + 1, last⟩) := by
  rw [sealAndWrite, StreamSealer.sealChunk, hcheck]
  exact (Emits.writeAll _).bind_last (.pure _)

/-- Sealing a full chunk that another follows. -/
theorem emits_flushPending {n : ℕ} {prev : List UInt8} (hfull : prev.length = chunkSize)
    (hn : n < maxChunkCount) :
    Emits (flushPending aead ⟨key, n, false⟩ (some prev))
      (aead.encrypt key (chunkNonce n false) [] prev) (.ok ⟨key, n + 1, false⟩) := by
  refine Emits.bind_nil .checkCancel (emits_sealAndWrite aead key ?_)
  rw [StreamSealer.check_full key hfull, if_pos hn]

/-- Sealing the chunk that ends the stream. -/
theorem emits_sealFinal {n : ℕ} {chunk : List UInt8} (hle : chunk.length ≤ chunkSize)
    (hempty : n = 0 ∨ chunk ≠ []) (hn : n < maxChunkCount) :
    Emits (Drive.bind checkCancel fun () =>
        Drive.bind (sealAndWrite aead ⟨key, n, false⟩ chunk true) fun _ => Drive.pure ())
      (aead.encrypt key (chunkNonce n true) [] chunk) (.ok ()) := by
  have hcheck : (StreamSealer.mk key n false).check chunk true = .ok () := by
    rw [StreamSealer.check_last key hle hempty, if_pos hn]
  exact Emits.bind_nil .checkCancel ((emits_sealAndWrite aead key hcheck).bind_last (.pure ()))

/-- One round of the loop. -/
theorem sealLoop_step {sealer : StreamSealer} {pending : Option (List UInt8)}
    {reader rest : Reader} {chunk : List UInt8}
    (h : readFullChunk reader chunkSize = .ok (chunk, rest)) :
    sealLoop aead sealer pending reader =
      if chunk.length = chunkSize then
        Drive.bind (flushPending aead sealer pending) fun sealer =>
          sealLoop aead sealer (some chunk) rest
      else if chunk = [] then
        Drive.bind checkCancel fun () =>
          Drive.bind (sealAndWrite aead sealer (pending.getD []) true) fun _ => Drive.pure ()
      else
        Drive.bind (flushPending aead sealer pending) fun sealer =>
          Drive.bind checkCancel fun () =>
            Drive.bind (sealAndWrite aead sealer chunk true) fun _ => Drive.pure () := by
  rw [sealLoop]
  split
  · rename_i e herror
    rw [h] at herror
    cases herror
  · rename_i chunk' rest' hok
    rw [h] at hok
    cases hok
    rfl

/-- With a pending chunk, the loop seals it and the bytes that are left. -/
theorem emits_sealLoop {reader : Reader} {bytes : List UInt8} (hbytes : Delivers reader bytes)
    {n : ℕ} {prev : List UInt8} (hfull : prev.length = chunkSize)
    (hcount : n + (pieces chunkSize (prev ++ bytes)).length ≤ maxChunkCount) :
    Emits (sealLoop aead ⟨key, n, false⟩ (some prev) reader)
      (sealedPieces aead key n (pieces chunkSize (prev ++ bytes))).flatten (.ok ()) := by
  have hpos := chunkSize_pos
  induction hlen : bytes.length using Nat.strong_induction_on
    generalizing bytes reader n prev with
  | _ k ih =>
      obtain ⟨rest, hread, hrest⟩ := readFullChunk_of_delivers hbytes chunkSize
      have hprev : prev ≠ [] := List.ne_nil_of_length_pos (by omega)
      rw [sealLoop_step aead hread]
      by_cases hnil : bytes = []
      · -- The pending chunk is the last one.
        have hpieces : pieces chunkSize (prev ++ bytes) = [prev] := by
          rw [hnil, List.append_nil, pieces_of_le (by omega)]
        rw [hpieces, List.length_singleton] at hcount
        rw [hpieces, hnil, List.take_nil, if_neg (by simpa using hpos.ne), if_pos rfl,
          sealedPieces_cons, sealedPieces_nil, List.flatten_cons, List.flatten_nil, List.append_nil]
        exact emits_sealFinal aead key (by rw [Option.getD_some]; omega) (.inr hprev) (by omega)
      · have hbytespos : 0 < bytes.length := List.length_pos_of_ne_nil hnil
        have hpieces : pieces chunkSize (prev ++ bytes) = prev :: pieces chunkSize bytes := by
          rw [pieces_of_lt hpos (by rw [List.length_append]; omega), List.take_left' hfull,
            List.drop_left' hfull]
        have hmore : (pieces chunkSize bytes).isEmpty = false := by
          simpa using pieces_ne_nil chunkSize bytes
        rw [hpieces, List.length_cons] at hcount
        rw [hpieces, sealedPieces_cons, hmore, List.flatten_cons]
        have hflush := emits_flushPending aead key (n := n) hfull (by omega)
        by_cases hle : chunkSize ≤ bytes.length
        · have htake : (bytes.take chunkSize).length = chunkSize := by
            rw [List.length_take]
            omega
          have hdrop : (bytes.drop chunkSize).length = bytes.length - chunkSize := List.length_drop
          have hloop := @ih (bytes.drop chunkSize).length (by omega) rest (bytes.drop chunkSize)
            hrest (n + 1) (bytes.take chunkSize) htake
          rw [List.take_append_drop] at hloop
          rw [if_pos htake]
          exact hflush.bind (hloop (by omega) rfl)
        · have htake : bytes.take chunkSize = bytes := List.take_of_length_le (by omega)
          rw [htake, if_neg (by omega), if_neg hnil]
          rw [pieces_of_le (by omega), List.length_singleton] at hcount
          rw [pieces_of_le (by omega), sealedPieces_cons, sealedPieces_nil, List.flatten_cons,
            List.flatten_nil, List.append_nil]
          exact hflush.bind (emits_sealFinal aead key (by omega) (.inr hnil) (by omega))

/-- What the sealing driver writes. -/
theorem emits_driveSeal {reader : Reader} {bytes c : List UInt8} (hbytes : Delivers reader bytes)
    (hseal : streamSeal aead key bytes = .ok c) :
    Emits (driveSeal aead key reader) c (.ok ()) := by
  obtain ⟨hcount, rfl⟩ := (streamSeal_eq_ok key).mp hseal
  have hpos := chunkSize_pos
  obtain ⟨rest, hread, hrest⟩ := readFullChunk_of_delivers hbytes chunkSize
  rw [driveSeal, sealLoop_step aead hread]
  by_cases hle : chunkSize ≤ bytes.length
  · have htake : (bytes.take chunkSize).length = chunkSize := by
      rw [List.length_take]
      omega
    have hloop := emits_sealLoop aead key hrest (n := 0) htake
    rw [List.take_append_drop, Nat.zero_add] at hloop
    rw [if_pos htake]
    exact Emits.bind_nil (.pure _) (hloop hcount)
  · have htake : bytes.take chunkSize = bytes := List.take_of_length_le (by omega)
    have hlen : bytes.length ≤ chunkSize := by omega
    have hfinal := emits_sealFinal aead key (n := 0) hlen (.inl rfl) (by decide)
    rw [htake, if_neg (by omega), pieces_of_le (by omega), sealedPieces_cons, sealedPieces_nil,
      List.flatten_cons, List.flatten_nil, List.append_nil]
    by_cases hnil : bytes = []
    · rw [if_pos hnil, Option.getD_none]
      rwa [hnil] at hfinal ⊢
    · rw [if_neg hnil]
      exact Emits.bind_nil (.pure _) hfinal

/-! ## Opening -/

/-- The plaintexts of the leading chunks that authenticate. -/
def openedPrefix : StreamOpener → List (List UInt8) → List UInt8
  | _, [] => []
  | opener, s :: ss =>
      match opener.openChunk aead s ss.isEmpty with
      | none => []
      | some (p, opener) => p ++ openedPrefix opener ss

/-- The outcome for a list of sealed chunks. -/
def openOutcome (opener : StreamOpener) (cs : List (List UInt8)) : StreamUnwrapOutcome :=
  if (openPieces aead opener cs).isSome then .matched else tampered

/-- The chunks up to one that does not open. -/
theorem opened_none {opener : StreamOpener} {s : List UInt8} {ss : List (List UInt8)}
    (h : opener.openChunk aead s ss.isEmpty = none) :
    openedPrefix aead opener (s :: ss) = [] ∧ openOutcome aead opener (s :: ss) = tampered := by
  simp [openedPrefix, openOutcome, openPieces, h]

theorem opened_some {opener opener' : StreamOpener} {s p : List UInt8} {ss : List (List UInt8)}
    (h : opener.openChunk aead s ss.isEmpty = some (p, opener')) :
    openedPrefix aead opener (s :: ss) = p ++ openedPrefix aead opener' ss ∧
      openOutcome aead opener (s :: ss) = openOutcome aead opener' ss := by
  simp [openedPrefix, openOutcome, openPieces, h]

/-- When the stream opens, everything was released. -/
theorem openedPrefix_of_openPieces {opener : StreamOpener} {cs : List (List UInt8)}
    {p : List UInt8} (h : openPieces aead opener cs = some p) :
    openedPrefix aead opener cs = p := by
  induction cs generalizing opener p with
  | nil =>
      cases h
      rfl
  | cons s ss ih =>
      cases hchunk : opener.openChunk aead s ss.isEmpty with
      | none => simp [openPieces, hchunk] at h
      | some step =>
          simp only [openPieces, hchunk, Option.map_eq_some_iff] at h
          obtain ⟨rest, hrest, rfl⟩ := h
          rw [(opened_some aead hchunk).1, ih hrest]

theorem emits_openAndWrite (opener : StreamOpener) (s : List UInt8) (last : Bool) :
    Emits (openAndWrite aead opener s last)
      ((opener.openChunk aead s last).elim [] Prod.fst)
      (.ok ((opener.openChunk aead s last).map Prod.snd)) := by
  rw [openAndWrite]
  cases opener.openChunk aead s last with
  | none => exact .pure none
  | some step => exact (Emits.writeAll step.1).bind_last (.pure (some step.2))

theorem emits_openFinal (opener : StreamOpener) (s : List UInt8) :
    Emits (openFinal aead opener s) (openedPrefix aead opener [s])
      (.ok (openOutcome aead opener [s])) := by
  have hopen := emits_openAndWrite aead opener s true
  refine Emits.bind_nil .checkCancel ?_
  cases hchunk : opener.openChunk aead s true with
  | none =>
      rw [hchunk] at hopen
      rw [(opened_none aead hchunk).1, (opened_none aead hchunk).2]
      exact hopen.bind_last (.pure _)
  | some step =>
      rw [hchunk] at hopen
      rw [(opened_some aead hchunk).1, (opened_some aead hchunk).2, openedPrefix, List.append_nil]
      exact hopen.bind_last (.pure _)

/-- A pending chunk and what comes after it. -/
theorem emits_openPending {opener : StreamOpener} {prev : List UInt8} {ss : List (List UInt8)}
    (hmore : ss.isEmpty = false) {next : StreamOpener → Drive StreamUnwrapOutcome}
    (hnext : ∀ opener', Emits (next opener') (openedPrefix aead opener' ss)
      (.ok (openOutcome aead opener' ss))) :
    Emits (Drive.bind (openPending aead opener (some prev)) fun
        | none => Drive.pure tampered
        | some opener => next opener)
      (openedPrefix aead opener (prev :: ss)) (.ok (openOutcome aead opener (prev :: ss))) := by
  have hopen : Emits (openPending aead opener (some prev)) _ _ :=
    Emits.bind_nil .checkCancel (emits_openAndWrite aead opener prev false)
  cases hchunk : opener.openChunk aead prev false with
  | none =>
      rw [hchunk] at hopen
      rw [← hmore] at hchunk
      rw [(opened_none aead hchunk).1, (opened_none aead hchunk).2]
      exact Emits.bind_last hopen (.pure tampered)
  | some step =>
      rw [hchunk] at hopen
      rw [← hmore] at hchunk
      rw [(opened_some aead hchunk).1, (opened_some aead hchunk).2]
      exact Emits.bind hopen (hnext step.2)

/-- One round of the loop. -/
theorem openLoop_step {opener : StreamOpener} {pending : Option (List UInt8)}
    {reader rest : Reader} {sealed : List UInt8}
    (h : readFullChunk reader sealedChunkSize = .ok (sealed, rest)) :
    openLoop aead opener pending reader =
      if sealed.length = sealedChunkSize then
        Drive.bind (openPending aead opener pending) fun
          | none => Drive.pure tampered
          | some opener => openLoop aead opener (some sealed) rest
      else if sealed = [] then
        match pending with
        | none => Drive.pure tampered
        | some prev => openFinal aead opener prev
      else
        Drive.bind (openPending aead opener pending) fun
          | none => Drive.pure tampered
          | some opener =>
              if sealed.length < tagSize then Drive.pure tampered
              else openFinal aead opener sealed := by
  rw [openLoop.eq_def]
  split
  · rename_i e herror
    rw [h] at herror
    cases herror
  · rename_i sealed' rest' hok
    rw [h] at hok
    cases hok
    rfl

/-- A tail, which a driver refuses before the opener does when it is too short for a tag. -/
theorem emits_openTail (opener : StreamOpener) (s : List UInt8) :
    Emits (if s.length < tagSize then Drive.pure tampered else openFinal aead opener s)
      (openedPrefix aead opener [s]) (.ok (openOutcome aead opener [s])) := by
  by_cases hshort : s.length < tagSize
  · have hclosed : opener.openChunk aead s true = none := by
      have hadmits : opener.admits s true = false := by
        simp [StreamOpener.admits, hshort]
      rw [StreamOpener.openChunk, hadmits]
      rfl
    rw [if_pos hshort, (opened_none aead hclosed).1, (opened_none aead hclosed).2]
    exact .pure tampered
  · rw [if_neg hshort]
    exact emits_openFinal aead opener s

/-- With a pending chunk, the loop opens it and the bytes that are left. -/
theorem emits_openLoop {reader : Reader} {bytes : List UInt8} (hbytes : Delivers reader bytes)
    {opener : StreamOpener} {prev : List UInt8} (hfull : prev.length = sealedChunkSize) :
    Emits (openLoop aead opener (some prev) reader)
      (openedPrefix aead opener (pieces sealedChunkSize (prev ++ bytes)))
      (.ok (openOutcome aead opener (pieces sealedChunkSize (prev ++ bytes)))) := by
  have hpos := sealedChunkSize_pos
  induction hlen : bytes.length using Nat.strong_induction_on
    generalizing bytes reader opener prev with
  | _ k ih =>
      obtain ⟨rest, hread, hrest⟩ := readFullChunk_of_delivers hbytes sealedChunkSize
      rw [openLoop_step aead hread]
      by_cases hnil : bytes = []
      · rw [hnil, List.append_nil, pieces_of_le (by omega), List.take_nil,
          if_neg (by simpa using hpos.ne), if_pos rfl]
        exact emits_openFinal aead opener prev
      · have hbytespos : 0 < bytes.length := List.length_pos_of_ne_nil hnil
        have hmore : (pieces sealedChunkSize bytes).isEmpty = false := by
          simpa using pieces_ne_nil sealedChunkSize bytes
        rw [pieces_of_lt hpos (by rw [List.length_append]; omega), List.take_left' hfull,
          List.drop_left' hfull]
        by_cases hle : sealedChunkSize ≤ bytes.length
        · have htake : (bytes.take sealedChunkSize).length = sealedChunkSize := by
            rw [List.length_take]
            omega
          have hdrop : (bytes.drop sealedChunkSize).length = bytes.length - sealedChunkSize :=
            List.length_drop
          rw [if_pos htake]
          apply emits_openPending aead hmore
          intro opener'
          have hloop := @ih (bytes.drop sealedChunkSize).length (by omega) rest
            (bytes.drop sealedChunkSize) hrest opener' (bytes.take sealedChunkSize) htake rfl
          rwa [List.take_append_drop] at hloop
        · have htake : bytes.take sealedChunkSize = bytes := List.take_of_length_le (by omega)
          rw [htake, if_neg (by omega), if_neg hnil]
          apply emits_openPending aead hmore
          intro opener'
          rw [pieces_of_le (by omega)]
          exact emits_openTail aead opener' bytes

/-- What the opening driver writes and returns. -/
theorem emits_driveOpen {reader : Reader} {bytes : List UInt8} (hbytes : Delivers reader bytes) :
    Emits (driveOpen aead key reader)
      (openedPrefix aead (StreamOpener.new key) (pieces sealedChunkSize bytes))
      (.ok (openOutcome aead (StreamOpener.new key) (pieces sealedChunkSize bytes))) := by
  have hpos := sealedChunkSize_pos
  obtain ⟨rest, hread, hrest⟩ := readFullChunk_of_delivers hbytes sealedChunkSize
  rw [driveOpen, openLoop_step aead hread]
  by_cases hle : sealedChunkSize ≤ bytes.length
  · have htake : (bytes.take sealedChunkSize).length = sealedChunkSize := by
      rw [List.length_take]
      omega
    have hloop := @emits_openLoop aead _ _ hrest (StreamOpener.new key) _ htake
    rw [List.take_append_drop] at hloop
    rw [if_pos htake]
    exact Emits.bind_nil (.pure _) hloop
  · have htake : bytes.take sealedChunkSize = bytes := List.take_of_length_le (by omega)
    have htail := emits_openTail aead (StreamOpener.new key) bytes
    rw [htake, if_neg (by omega), pieces_of_le (by omega)]
    by_cases hnil : bytes = []
    · rw [hnil, if_pos (by decide)] at htail
      rw [if_pos hnil, hnil]
      exact htail
    · rw [if_neg hnil]
      exact Emits.bind_nil (.pure _) htail

/-! ## The refinement -/

/-- **The drivers refine the buffered functions.** However the bytes are cut into reads, the
sealing driver writes the sealed stream, and the opening driver matches with the plaintext
where the buffered opening succeeds and otherwise reports a tampered ciphertext after the
leading chunks that authenticate. A cancelled run, or one with a failed write, ends in an
error after a prefix of that output. -/
theorem drivers_refine {reader : Reader} {bytes : List UInt8} (hbytes : Delivers reader bytes) :
    (∀ c, streamSeal aead key bytes = .ok c → Emits (driveSeal aead key reader) c (.ok ())) ∧
    (∀ p, streamOpen aead key bytes = some p →
      Emits (driveOpen aead key reader) p (.ok .matched)) ∧
    (streamOpen aead key bytes = none →
      Emits (driveOpen aead key reader)
        (openedPrefix aead (StreamOpener.new key) (pieces sealedChunkSize bytes))
        (.ok (.notMatched .tamperedCiphertext))) := by
  have hopen := emits_driveOpen aead key hbytes
  refine ⟨fun c hseal => emits_driveSeal aead key hbytes hseal, ?_, ?_⟩
  · intro p hp
    rw [streamOpen_eq_openPieces] at hp
    rwa [openedPrefix_of_openPieces aead hp, openOutcome, hp] at hopen
  · intro hnone
    rw [streamOpen_eq_openPieces] at hnone
    rwa [openOutcome, hnone] at hopen

end Drivers

/-- The sealed word in two reads with an interruption between them. -/
theorem drivers_refine_hello :
    Emits (driveOpen sampleCipher.aead sampleKey
        [.data (sampleSealed.take 7), .interrupted, .data (sampleSealed.drop 7)])
      (utf8Bytes "hello") (.ok .matched) := by
  have hdelivers : Delivers
      [.data (sampleSealed.take 7), .interrupted, .data (sampleSealed.drop 7)] sampleSealed :=
    .data (by decide) (.interrupted (.data (by decide) .done))
  have hopen := (streamOpen_eq_some_iff sampleKey sampleCipher.lawful).mpr streamSeal_hello
  exact (drivers_refine sampleCipher.aead sampleKey hdelivers).2.1 _ hopen

end Label309
