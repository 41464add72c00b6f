import Label309.SealedPoe.Stream
import Label309.Lib.ExceptBind

/-!
# Sealing and opening are inverse

Both directions are reduced to the list of chunks. The opener takes its layout from the
total length, which is the cut into full pieces; under a lawful cipher the pieces that open
are exactly those that the sealer makes of a plaintext.
-/
namespace Label309
open BigEndian Chunks

theorem chunkSize_pos : 0 < chunkSize := by decide

theorem tagSize_pos : 0 < tagSize := by decide

theorem sealedChunkSize_eq : sealedChunkSize = chunkSize + tagSize := rfl

theorem sealedChunkSize_pos : 0 < sealedChunkSize := by decide

/-! ## Nonces -/

theorem chunkNonce_injective {i j : ℕ} {b b' : Bool} (hi : i < maxChunkCount)
    (hj : j < maxChunkCount) (h : chunkNonce i b = chunkNonce j b') : i = j ∧ b = b' := by
  have hpow : maxChunkCount = 256 ^ 11 := by norm_num [maxChunkCount]
  obtain ⟨hcounter, hflag⟩ := List.append_inj (congrArg Subtype.val h) (by simp)
  constructor
  · have hvalue := congrArg ofBe hcounter
    rwa [ofBe_toBe (hpow ▸ hi), ofBe_toBe (hpow ▸ hj)] at hvalue
  · cases b <;> cases b' <;> simp_all

/-- The nonces of a stream of `count` chunks, the first at `start`. -/
def streamNonces (start count : ℕ) : List (FixedBytes 12) :=
  (List.range count).map fun i => chunkNonce (start + i) (i + 1 == count)

theorem streamNonces_nodup {start count : ℕ} (h : start + count ≤ maxChunkCount) :
    (streamNonces start count).Nodup := by
  refine List.Nodup.map_on ?_ List.nodup_range
  intro i hi j hj hnonce
  rw [List.mem_range] at hi hj
  have hcounter := (chunkNonce_injective (by omega) (by omega) hnonce).1
  omega

theorem streamNonces_succ (start count : ℕ) :
    streamNonces start (count + 1) =
      chunkNonce start (count == 0) :: streamNonces (start + 1) count := by
  simp only [streamNonces, List.range_succ_eq_map, List.map_cons, List.map_map, Nat.add_zero]
  congr 1
  · congr 1
    simp
  · apply List.map_congr_left
    intro i _
    simp [Nat.add_assoc, Nat.add_comm 1 i]

/-! ## The sealed chunks -/

section Cipher
variable (aead : Aead) (key : FixedBytes 32)

/-- The chunks sealed from the counter `start` on. -/
def sealedPieces (start : ℕ) (ps : List (List UInt8)) : List (List UInt8) :=
  List.zipWith (fun nonce p => aead.encrypt key nonce [] p) (streamNonces start ps.length) ps

@[simp] theorem sealedPieces_nil (start : ℕ) : sealedPieces aead key start [] = [] := rfl

theorem sealedPieces_cons (start : ℕ) (p : List UInt8) (ps : List (List UInt8)) :
    sealedPieces aead key start (p :: ps) =
      aead.encrypt key (chunkNonce start ps.isEmpty) [] p ::
        sealedPieces aead key (start + 1) ps := by
  have hlast : (ps.length == 0) = ps.isEmpty := by cases ps <;> rfl
  rw [sealedPieces, List.length_cons, streamNonces_succ, List.zipWith_cons_cons, hlast]
  rfl

theorem sealedPieces_isEmpty (start : ℕ) (ps : List (List UInt8)) :
    (sealedPieces aead key start ps).isEmpty = ps.isEmpty := by
  cases ps with
  | nil => rfl
  | cons p ps => simp [sealedPieces_cons]

theorem getElem?_sealedPieces (start i : ℕ) (ps : List (List UInt8)) :
    (sealedPieces aead key start ps)[i]? =
      ps[i]?.map (aead.encrypt key (chunkNonce (start + i) (i + 1 == ps.length)) []) := by
  by_cases hi : i < ps.length
  · simp [sealedPieces, streamNonces, hi]
  · simp [sealedPieces, streamNonces, hi]

/-- Open the chunks in order; the one with none after it is the last. -/
def openPieces : StreamOpener → List (List UInt8) → Option (List UInt8)
  | _, [] => some []
  | opener, s :: ss =>
      match opener.openChunk aead s ss.isEmpty with
      | none => none
      | some (p, opener) => (openPieces opener ss).map (p ++ ·)

/-! ## The sealer -/

theorem StreamSealer.check_last {n : ℕ} {p : List UInt8} (hle : p.length ≤ chunkSize)
    (hempty : n = 0 ∨ p ≠ []) :
    (StreamSealer.mk key n false).check p true =
      if n < maxChunkCount then .ok () else .error .counterExhausted := by
  have hemptyFinal : ¬ (p = [] ∧ n ≠ 0) := by
    intro h
    rcases hempty with hn | hp
    · exact h.2 hn
    · exact hp h.1
  by_cases hn : n < maxChunkCount
  · simp [StreamSealer.check, hn, hle, hemptyFinal]
  · simp [StreamSealer.check, hn]

theorem StreamSealer.check_full {n : ℕ} {p : List UInt8} (hfull : p.length = chunkSize) :
    (StreamSealer.mk key n false).check p false =
      if n < maxChunkCount then .ok () else .error .counterExhausted := by
  by_cases hn : n < maxChunkCount
  · simp [StreamSealer.check, hn, hfull]
  · simp [StreamSealer.check, hn]

/-- Sealing the pieces of a plaintext fails on the counter only. -/
theorem sealChunks_eq_ok {ps : List (List UInt8)} (h : Regular chunkSize ps) {n : ℕ}
    (hempty : n = 0 ∨ ps.head? ≠ some []) {c : List UInt8} :
    sealChunks aead ⟨key, n, false⟩ ps = .ok c ↔
      n + ps.length ≤ maxChunkCount ∧ c = (sealedPieces aead key n ps).flatten := by
  induction h generalizing n c with
  | @last p hle =>
      have hp : n = 0 ∨ p ≠ [] := by simpa using hempty
      rw [sealChunks, List.isEmpty_nil, StreamSealer.sealChunk, StreamSealer.check_last key hle hp]
      by_cases hn : n < maxChunkCount
      · simp [hn, sealChunks, sealedPieces_cons, Except.map, eq_comm]
      · simp [hn]
  | @cons p d ps hfull hne hrest ih =>
      rw [sealChunks, List.isEmpty_cons, StreamSealer.sealChunk, StreamSealer.check_full key hfull]
      by_cases hn : n < maxChunkCount
      · have htail := fun rest => @ih (n + 1) (.inr (by simpa using hne)) rest
        simp only [if_pos hn, ExceptBind.map_eq_ok, htail, sealedPieces_cons _ _ _ p,
          List.flatten_cons, List.length_cons, List.isEmpty_cons]
        constructor
        · rintro ⟨rest, ⟨hcount, rfl⟩, rfl⟩
          exact ⟨by omega, rfl⟩
        · rintro ⟨hcount, rfl⟩
          exact ⟨_, ⟨by omega, rfl⟩, rfl⟩
      · simp [hn]
        omega

/-! ## The opener -/

/-- A final chunk holds a tag, is no longer than a full one, and is a bare tag only when it
is the first. -/
theorem StreamOpener.admits_last {n : ℕ} {s : List UInt8} :
    (StreamOpener.mk key n false).admits s true = true ↔
      n < maxChunkCount ∧ tagSize ≤ s.length ∧ s.length ≤ sealedChunkSize ∧
        (s.length = tagSize → n = 0) := by
  by_cases hn : n < maxChunkCount
  · by_cases hlen : s.length < tagSize ∨ sealedChunkSize < s.length
    · simp [StreamOpener.admits, hn, hlen]
      omega
    · by_cases htag : s.length = tagSize ∧ n ≠ 0
      · simp [StreamOpener.admits, hn, htag]
      · simp [StreamOpener.admits, hn, hlen, htag]
        omega
  · simp [StreamOpener.admits, hn]

theorem StreamOpener.admits_full {n : ℕ} {s : List UInt8} :
    (StreamOpener.mk key n false).admits s false = true ↔
      n < maxChunkCount ∧ s.length = sealedChunkSize := by
  by_cases hn : n < maxChunkCount
  · simp [StreamOpener.admits, hn]
  · simp [StreamOpener.admits, hn]

theorem StreamOpener.openChunk_eq_some {opener opener' : StreamOpener} {s p : List UInt8}
    {last : Bool} :
    opener.openChunk aead s last = some (p, opener') ↔
      opener.admits s last = true ∧
        aead.decrypt opener.key (chunkNonce opener.counter last) [] s = some p ∧
        opener' = { opener with counter := opener.counter + 1, finished := last } := by
  rw [StreamOpener.openChunk]
  by_cases hadmits : opener.admits s last = true
  · rw [if_pos hadmits]
    cases aead.decrypt opener.key (chunkNonce opener.counter last) [] s with
    | none => simp
    | some plaintext => simp [hadmits, eq_comm]
  · simp [hadmits]

/-- A stream opens when its first chunk does and the rest does after it. -/
theorem openPieces_cons_eq_some {opener : StreamOpener} {s p : List UInt8}
    {ss : List (List UInt8)} :
    openPieces aead opener (s :: ss) = some p ↔
      ∃ q rest, opener.admits s ss.isEmpty = true ∧
        aead.decrypt opener.key (chunkNonce opener.counter ss.isEmpty) [] s = some q ∧
        openPieces aead { opener with counter := opener.counter + 1, finished := ss.isEmpty } ss =
          some rest ∧ p = q ++ rest := by
  rw [openPieces]
  constructor
  · intro h
    cases hchunk : opener.openChunk aead s ss.isEmpty with
    | none => simp [hchunk] at h
    | some step =>
        obtain ⟨q, opener'⟩ := step
        obtain ⟨hadmits, hdecrypt, rfl⟩ := (StreamOpener.openChunk_eq_some aead).mp hchunk
        simp only [hchunk, Option.map_eq_some_iff] at h
        obtain ⟨rest, hrest, hp⟩ := h
        exact ⟨q, rest, hadmits, hdecrypt, hrest, hp.symm⟩
  · rintro ⟨q, rest, hadmits, hdecrypt, hrest, rfl⟩
    have hchunk := (StreamOpener.openChunk_eq_some aead).mpr ⟨hadmits, hdecrypt, rfl⟩
    simp only [hchunk, hrest, Option.map_some]

variable {aead} (h : aead.Lawful)
include h

/-- What opens is the sealing of the pieces of a plaintext. -/
theorem sealedPieces_of_openPieces {cs : List (List UInt8)} (hcs : Regular sealedChunkSize cs)
    {n : ℕ} {p : List UInt8} (hopen : openPieces aead ⟨key, n, false⟩ cs = some p) :
    ∃ ps, Regular chunkSize ps ∧ (n = 0 ∨ ps.head? ≠ some []) ∧
      n + ps.length ≤ maxChunkCount ∧ p = ps.flatten ∧ cs = sealedPieces aead key n ps := by
  induction hcs generalizing n p with
  | @last s hle =>
      obtain ⟨q, rest, hadmits, hdecrypt, hrest, rfl⟩ :=
        (openPieces_cons_eq_some _).mp hopen
      obtain ⟨hcount, htag, -, hempty⟩ := (StreamOpener.admits_last key).mp hadmits
      rw [h.decrypt_eq_some] at hdecrypt
      cases hrest
      have hlen := h.length_encrypt key (chunkNonce n true) [] q
      rw [← show s = aead.encrypt key (chunkNonce n true) [] q from hdecrypt] at hlen
      refine ⟨[q], .last (by rw [sealedChunkSize_eq] at hle; omega), ?_, ?_, by simp, ?_⟩
      · by_cases hq : q = []
        · left
          exact hempty (by rw [hlen, hq]; simp)
        · right
          simpa using hq
      · simp only [List.length_singleton]
        omega
      · rw [sealedPieces_cons, sealedPieces_nil, hdecrypt]
  | @cons s d cs hfull hne hrest ih =>
      obtain ⟨q, rest, hadmits, hdecrypt, htail, rfl⟩ :=
        (openPieces_cons_eq_some _).mp hopen
      rw [List.isEmpty_cons] at hadmits hdecrypt htail
      rw [h.decrypt_eq_some] at hdecrypt
      obtain ⟨ps, hps, hhead, hcount, hflat, hsealed⟩ := ih htail
      have hlen := h.length_encrypt key (chunkNonce n false) [] q
      rw [← show s = aead.encrypt key (chunkNonce n false) [] q from hdecrypt,
        hfull, sealedChunkSize_eq] at hlen
      have hhead' : ps.head? ≠ some [] := hhead.resolve_left (by omega)
      have hpsne : ps.isEmpty = false := by simpa using hps.ne_nil
      refine ⟨q :: ps, .cons' (by omega) hps hhead', .inr ?_, ?_, ?_, ?_⟩
      · have hpos : 0 < q.length := by
          have := chunkSize_pos
          omega
        simpa using List.ne_nil_of_length_pos hpos
      · rw [List.length_cons]
        exact (by omega : n + (ps.length + 1) = n + 1 + ps.length) ▸ hcount
      · rw [List.flatten_cons, hflat]
      · rw [sealedPieces_cons, hpsne, hsealed, hdecrypt]

/-- The sealing of the pieces of a plaintext opens to it. -/
theorem openPieces_sealedPieces {ps : List (List UInt8)} (hps : Regular chunkSize ps) {n : ℕ}
    (hempty : n = 0 ∨ ps.head? ≠ some []) (hcount : n + ps.length ≤ maxChunkCount) :
    openPieces aead ⟨key, n, false⟩ (sealedPieces aead key n ps) = some ps.flatten := by
  induction hps generalizing n with
  | @last p hle =>
      have hlen := h.length_encrypt key (chunkNonce n true) [] p
      rw [sealedPieces_cons, sealedPieces_nil, openPieces_cons_eq_some]
      refine ⟨p, [], (StreamOpener.admits_last key).mpr ⟨?_, ?_, ?_, ?_⟩,
        (h.decrypt_eq_some ..).mpr rfl, rfl, by simp⟩
      · rw [List.length_singleton] at hcount
        omega
      · rw [List.isEmpty_nil, hlen]
        omega
      · rw [List.isEmpty_nil, hlen, sealedChunkSize_eq]
        omega
      · intro htag
        rw [List.isEmpty_nil, hlen] at htag
        have hp : p = [] := List.eq_nil_of_length_eq_zero (by omega)
        simpa [hp] using hempty
  | @cons p d ps hfull hne hrest ih =>
      rw [List.length_cons] at hcount
      have hlen := h.length_encrypt key (chunkNonce n false) [] p
      have htail := @ih (n + 1) (.inr (by simpa using hne)) (by omega)
      have hlast : (sealedPieces aead key (n + 1) (d :: ps)).isEmpty = false := by
        rw [sealedPieces_isEmpty, List.isEmpty_cons]
      rw [sealedPieces_cons, openPieces_cons_eq_some]
      refine ⟨p, (d :: ps).flatten, ?_, (h.decrypt_eq_some ..).mpr ?_, ?_, rfl⟩
      · rw [hlast, List.isEmpty_cons, StreamOpener.admits_full, hlen, hfull]
        exact ⟨by omega, rfl⟩
      · rw [hlast, List.isEmpty_cons]
      · rw [hlast]
        exact htail

/-- Sealed pieces are cut where the opener cuts. -/
theorem regular_sealedPieces {ps : List (List UInt8)} (hps : Regular chunkSize ps) (n : ℕ) :
    Regular sealedChunkSize (sealedPieces aead key n ps) := by
  induction hps generalizing n with
  | @last p hle =>
      have hlen := h.length_encrypt key (chunkNonce n true) [] p
      rw [sealedPieces_cons, sealedPieces_nil]
      apply Regular.last
      rw [List.isEmpty_nil, hlen, sealedChunkSize_eq]
      omega
  | @cons p d ps hfull hne hrest ih =>
      have hlen := h.length_encrypt key (chunkNonce n false) [] p
      rw [sealedPieces_cons]
      refine .cons' (by rw [List.isEmpty_cons, hlen, hfull]; rfl) (ih (n + 1)) ?_
      rw [sealedPieces_cons, List.head?_cons]
      intro hnil
      have htag := congrArg List.length (Option.some.inj hnil)
      rw [h.length_encrypt, List.length_nil] at htag
      have := tagSize_pos
      omega

omit h

/-! ## Whole buffers -/

theorem sliceChunks_of_ne_nil {p : List UInt8} (hp : p ≠ []) (n : ℕ) :
    sliceChunks n p = pieces n p := by
  rw [sliceChunks, if_neg (by simpa using hp)]

theorem streamSeal_eq_ok {p c : List UInt8} :
    streamSeal aead key p = .ok c ↔ (pieces chunkSize p).length ≤ maxChunkCount ∧
      c = (sealedPieces aead key 0 (pieces chunkSize p)).flatten := by
  have hseal := @sealChunks_eq_ok aead key _ (regular_pieces chunkSize_pos p) 0 (.inl rfl) c
  rw [Nat.zero_add] at hseal
  rw [← hseal, streamSeal]
  by_cases hp : p = []
  · rw [if_pos (by simpa using hp), hp, pieces_of_le (Nat.zero_le _), StreamSealer.new, sealChunks,
      List.isEmpty_nil]
    cases (StreamSealer.mk key 0 false).sealChunk aead [] true with
    | error panic => simp [Except.map]
    | ok step => simp [Except.map, sealChunks]
  · rw [if_neg (by simpa using hp), sliceChunks_of_ne_nil hp]
    rfl

/-- A tail too short for a tag does not open, whatever comes before it. -/
theorem openPieces_short {c : List UInt8} (hpos : 0 < c.length % sealedChunkSize)
    (hshort : c.length % sealedChunkSize < tagSize) {n : ℕ} :
    openPieces aead ⟨key, n, false⟩ (pieces sealedChunkSize c) = none := by
  induction hlen : c.length using Nat.strong_induction_on generalizing c n with
  | _ k ih =>
      have hS := sealedChunkSize_pos
      rw [Option.eq_none_iff_forall_not_mem]
      intro p hopen
      by_cases hle : c.length ≤ sealedChunkSize
      · rw [pieces_of_le hle, Option.mem_def, openPieces_cons_eq_some] at hopen
        obtain ⟨q, rest, hadmits, -⟩ := hopen
        have htag := ((StreamOpener.admits_last key).mp hadmits).2.1
        have hlt : c.length < sealedChunkSize := by
          apply Nat.lt_of_le_of_ne hle
          intro heq
          rw [heq, Nat.mod_self] at hpos
          omega
        rw [Nat.mod_eq_of_lt hlt] at hshort
        omega
      · rw [pieces_of_lt hS (by omega), Option.mem_def, openPieces_cons_eq_some] at hopen
        obtain ⟨q, rest, -, -, hrest, -⟩ := hopen
        have hlast : (pieces sealedChunkSize (c.drop sealedChunkSize)).isEmpty = false := by
          simpa using pieces_ne_nil sealedChunkSize (c.drop sealedChunkSize)
        have hdrop : (c.drop sealedChunkSize).length % sealedChunkSize =
            c.length % sealedChunkSize := by
          rw [List.length_drop, ← Nat.mod_eq_sub_mod (by omega)]
        have hnone := @ih (c.drop sealedChunkSize).length (by rw [List.length_drop]; omega)
          (c.drop sealedChunkSize) (hdrop ▸ hpos) (hdrop ▸ hshort) (n + 1) rfl
        simp only [hlast, hnone, reduceCtorEq] at hrest

theorem openFullChunks_succ_eq_some {c out : List UInt8} {i count : ℕ}
    {opener opener' : StreamOpener} :
    openFullChunks aead c i (count + 1) opener = some (out, opener') ↔
      ∃ q next rest,
        opener.openChunk aead ((c.drop (i * sealedChunkSize)).take sealedChunkSize) false =
          some (q, next) ∧
        openFullChunks aead c (i + 1) count next = some (rest, opener') ∧ out = q ++ rest := by
  simp only [openFullChunks, Option.bind_eq_bind, Option.bind_eq_some_iff, Prod.exists,
    Option.some.injEq, Prod.mk.injEq]
  constructor
  · rintro ⟨q, next, hchunk, rest, last, hrest, rfl, rfl⟩
    exact ⟨q, next, rest, hchunk, hrest, rfl⟩
  · rintro ⟨q, next, rest, hchunk, hrest, rfl⟩
    exact ⟨q, next, hchunk, rest, opener', hrest, rfl, rfl⟩

/-- The full chunks by their index, then the final one, are the pieces in their order. -/
theorem openFullChunks_final {c p : List UInt8} {final : ℕ} (hfinal : final ≤ sealedChunkSize)
    (hpos : 0 < final) {i count : ℕ} (hlen : c.length = (i + count) * sealedChunkSize + final)
    {opener : StreamOpener} :
    (∃ out opener' q last, openFullChunks aead c i count opener = some (out, opener') ∧
      opener'.openChunk aead (c.drop ((i + count) * sealedChunkSize)) true = some (q, last) ∧
      p = out ++ q) ↔
      openPieces aead opener (pieces sealedChunkSize (c.drop (i * sealedChunkSize))) = some p := by
  induction count generalizing i opener p with
  | zero =>
      rw [Nat.add_zero] at hlen ⊢
      have hrest : (c.drop (i * sealedChunkSize)).length ≤ sealedChunkSize := by
        rw [List.length_drop, hlen]
        omega
      rw [pieces_of_le hrest, openFullChunks, openPieces, List.isEmpty_nil]
      cases hchunk : opener.openChunk aead (c.drop (i * sealedChunkSize)) true with
      | none =>
          simp only [reduceCtorEq, iff_false, not_exists, not_and, Option.some.injEq,
            Prod.mk.injEq]
          rintro out opener' q last ⟨rfl, rfl⟩ hlast
          rw [hchunk] at hlast
          cases hlast
      | some step =>
          constructor
          · rintro ⟨out, opener', q, last, hnil, hlast, rfl⟩
            cases hnil
            rw [hchunk] at hlast
            cases hlast
            simp [openPieces]
          · intro hp
            exact ⟨[], opener, step.1, step.2, rfl, hchunk, by simpa [openPieces] using hp.symm⟩
  | succ count ih =>
      have hS := sealedChunkSize_pos
      have hsplit : (i + (count + 1)) * sealedChunkSize =
          i * sealedChunkSize + count * sealedChunkSize + sealedChunkSize := by ring
      have hrest : sealedChunkSize < (c.drop (i * sealedChunkSize)).length := by
        rw [List.length_drop, hlen]
        omega
      have hdrop : (c.drop (i * sealedChunkSize)).drop sealedChunkSize =
          c.drop ((i + 1) * sealedChunkSize) := by
        rw [List.drop_drop, add_mul, one_mul]
      have hlast : (pieces sealedChunkSize (c.drop ((i + 1) * sealedChunkSize))).isEmpty = false := by
        simpa using pieces_ne_nil sealedChunkSize (c.drop ((i + 1) * sealedChunkSize))
      rw [show i + (count + 1) = i + 1 + count by omega] at hlen ⊢
      rw [pieces_of_lt hS hrest, hdrop, openPieces, hlast]
      constructor
      · rintro ⟨out, opener', q, last, hfull, hfinal', rfl⟩
        obtain ⟨q', next, rest, hchunk, hmore, rfl⟩ :=
          openFullChunks_succ_eq_some.mp hfull
        have htail := (ih hlen).mp ⟨rest, opener', q, last, hmore, hfinal', rfl⟩
        simp [hchunk, htail]
      · intro hopen
        cases hchunk : opener.openChunk aead
            ((c.drop (i * sealedChunkSize)).take sealedChunkSize) false with
        | none => simp [hchunk] at hopen
        | some step =>
            simp only [hchunk, Option.map_eq_some_iff] at hopen
            obtain ⟨tail, htail, rfl⟩ := hopen
            obtain ⟨out, opener', q, last, hmore, hfinal', rfl⟩ := (ih hlen).mpr htail
            refine ⟨step.1 ++ out, opener', q, last, ?_, hfinal', by rw [List.append_assoc]⟩
            exact openFullChunks_succ_eq_some.mpr ⟨_, _, out, hchunk, hmore, rfl⟩

theorem fullChunkCount_eq_some {total count : ℕ} (h : fullChunkCount total = some count) :
    ∃ final, tagSize ≤ final ∧ final ≤ sealedChunkSize ∧
      total = count * sealedChunkSize + final := by
  have hS := sealedChunkSize_pos
  have hmod := Nat.mod_add_div' total sealedChunkSize
  have hlt := Nat.mod_lt total hS
  rw [fullChunkCount] at h
  by_cases htag : total < tagSize
  · simp [htag] at h
  · by_cases hzero : total % sealedChunkSize = 0
    · have hdiv : 0 < total / sealedChunkSize := by
        apply Nat.pos_of_ne_zero
        intro hnone
        rw [hnone, hzero] at hmod
        have := tagSize_pos
        omega
      simp only [htag, hzero, if_false, if_true, Option.some.injEq] at h
      have hmul : total / sealedChunkSize * sealedChunkSize =
          (total / sealedChunkSize - 1) * sealedChunkSize + sealedChunkSize := by
        rw [Nat.sub_one_mul, Nat.sub_add_cancel (Nat.le_mul_of_pos_left _ hdiv)]
      refine ⟨sealedChunkSize, Nat.le_add_left _ _, le_refl _, ?_⟩
      rw [← h]
      omega
    · by_cases hfinal : tagSize ≤ total % sealedChunkSize
      · simp only [htag, hzero, hfinal, if_false, if_true, Option.some.injEq] at h
        refine ⟨total % sealedChunkSize, hfinal, by omega, ?_⟩
        rw [← h]
        omega
      · simp [htag, hzero, hfinal] at h

theorem streamOpen_eq_openPieces (c : List UInt8) :
    streamOpen aead key c =
      openPieces aead (StreamOpener.new key) (pieces sealedChunkSize c) := by
  have htag := tagSize_pos
  cases hcount : fullChunkCount c.length with
  | none =>
      rw [streamOpen, hcount]
      by_cases hshort : c.length < tagSize
      · have hle : c.length ≤ sealedChunkSize := by
          rw [sealedChunkSize_eq]
          omega
        have hadmits : (StreamOpener.new key).admits c true = false := by
          rw [Bool.eq_false_iff]
          intro hadmits
          have hlen := ((StreamOpener.admits_last key).mp hadmits).2.1
          omega
        rw [pieces_of_le hle, openPieces, List.isEmpty_nil, StreamOpener.openChunk, hadmits]
        rfl
      · rw [fullChunkCount, if_neg hshort] at hcount
        by_cases hzero : c.length % sealedChunkSize = 0
        · simp [hzero] at hcount
        · by_cases hfinal : tagSize ≤ c.length % sealedChunkSize
          · simp [hzero, hfinal] at hcount
          · exact (openPieces_short key (by omega : 0 < c.length % sealedChunkSize) (by omega)).symm
  | some count =>
      obtain ⟨final, hmin, hmax, hlen⟩ := fullChunkCount_eq_some hcount
      apply Option.ext
      intro p
      have hpieces := @openFullChunks_final aead c p final hmax (by omega) 0 count
        (by rw [Nat.zero_add, hlen]) (StreamOpener.new key)
      rw [Nat.zero_mul, List.drop_zero, Nat.zero_add] at hpieces
      rw [← hpieces, streamOpen, hcount]
      simp only [Option.bind_eq_bind, Option.bind_some, Option.bind_eq_some_iff, Prod.exists,
        Option.some.injEq]
      constructor
      · rintro ⟨out, opener', hfull, q, last, hfinal, rfl⟩
        exact ⟨out, opener', q, last, hfull, hfinal, rfl⟩
      · rintro ⟨out, opener', q, last, hfull, hfinal, rfl⟩
        exact ⟨out, opener', hfull, q, last, hfinal, rfl⟩

/-! ## The format -/

/-- A piece of `c` that authenticates under a nonce of the stream is the chunk that the
sealer of `plaintext` made under that nonce. -/
def Unforged (aead : Aead) (key : FixedBytes 32) (plaintext c : List UInt8) : Prop :=
  ∀ (i : ℕ) (last : Bool) (s : List UInt8), i < maxChunkCount → s ∈ pieces sealedChunkSize c →
    aead.decrypt key (chunkNonce i last) [] s ≠ none →
      ∃ q, (pieces chunkSize plaintext)[i]? = some q ∧
        last = (i + 1 == (pieces chunkSize plaintext).length) ∧
        s = aead.encrypt key (chunkNonce i last) [] q

include h

/-- What opens is a sealed stream, and a sealed stream opens. -/
theorem streamOpen_eq_some_iff {p c : List UInt8} :
    streamOpen aead key c = some p ↔ streamSeal aead key p = .ok c := by
  rw [streamOpen_eq_openPieces, streamSeal_eq_ok]
  constructor
  · intro hopen
    obtain ⟨ps, hps, -, hcount, rfl, hsealed⟩ := sealedPieces_of_openPieces key h
      (regular_pieces sealedChunkSize_pos c) hopen
    rw [hps.pieces_flatten chunkSize_pos, ← hsealed, flatten_pieces]
    exact ⟨by omega, rfl⟩
  · rintro ⟨hcount, rfl⟩
    have hps := regular_pieces chunkSize_pos p
    rw [(regular_sealedPieces key h hps 0).pieces_flatten sealedChunkSize_pos]
    have hopen := openPieces_sealedPieces key h hps (.inl rfl) (by rwa [Nat.zero_add])
    rwa [flatten_pieces] at hopen

/-- Nothing but the sealed stream opens, when no piece is forged. -/
theorem eq_of_streamOpen_unforged {p p' c c' : List UInt8} (hseal : streamSeal aead key p = .ok c)
    (hunforged : Unforged aead key p c') (hopen : streamOpen aead key c' = some p') : c' = c := by
  obtain ⟨hcount', hc'⟩ := (streamSeal_eq_ok key).mp ((streamOpen_eq_some_iff key h).mp hopen)
  obtain ⟨-, rfl⟩ := (streamSeal_eq_ok key).mp hseal
  have hps' := regular_pieces chunkSize_pos p'
  have hcut : pieces sealedChunkSize c' = sealedPieces aead key 0 (pieces chunkSize p') := by
    rw [hc', (regular_sealedPieces key h hps' 0).pieces_flatten sealedChunkSize_pos]
  -- Every chunk of the second stream is the chunk of the first at the same index.
  have hsame : ∀ (i : ℕ) q', (pieces chunkSize p')[i]? = some q' →
      (pieces chunkSize p)[i]? = some q' ∧
        ((i + 1 == (pieces chunkSize p').length) = (i + 1 == (pieces chunkSize p).length)) := by
    intro i q' hq'
    have hi : i < (pieces chunkSize p').length := (List.getElem?_eq_some_iff.mp hq').1
    have hget := getElem?_sealedPieces aead key 0 i (pieces chunkSize p')
    rw [hq', Option.map_some, Nat.zero_add, ← hcut] at hget
    have hdecrypt := (h.decrypt_eq_some key
      (chunkNonce i (i + 1 == (pieces chunkSize p').length)) [] _ q').mpr rfl
    obtain ⟨q, hq, hlast, hseal'⟩ := hunforged i _ _ (by omega) (List.mem_of_getElem? hget)
      (by rw [hdecrypt]; simp)
    rw [(h.decrypt_eq_some ..).mpr hseal'] at hdecrypt
    rw [hq, hdecrypt]
    exact ⟨rfl, hlast⟩
  have hpos' : 0 < (pieces chunkSize p').length := List.length_pos_of_ne_nil (pieces_ne_nil _ _)
  have hlen : (pieces chunkSize p').length = (pieces chunkSize p).length := by
    obtain ⟨-, hlast⟩ := hsame ((pieces chunkSize p').length - 1) _
      (List.getElem?_eq_getElem (by omega))
    rw [Nat.sub_add_cancel hpos', beq_self_eq_true, eq_comm, beq_iff_eq] at hlast
    exact hlast
  have hpieces : pieces chunkSize p' = pieces chunkSize p := by
    apply List.ext_getElem? 
    intro i
    cases hq' : (pieces chunkSize p')[i]? with
    | none =>
        rw [eq_comm, List.getElem?_eq_none_iff, ← hlen]
        exact List.getElem?_eq_none_iff.mp hq'
    | some q' => rw [(hsame i q' hq').1]
  rw [hc', hpieces]

/-- **The format is a bijection.** A byte string opens to a plaintext exactly when it is the
sealing of that plaintext; sealing trips no assertion below `2 ^ 88` chunks and uses every
nonce once; and no other string opens unless a piece of it is a forged chunk. -/
theorem stream_bijection :
    (∀ p c, streamOpen aead key c = some p ↔ streamSeal aead key p = .ok c) ∧
    (∀ p, p.length ≤ maxChunkCount * chunkSize →
      (streamNonces 0 (pieces chunkSize p).length).Nodup ∧
      streamSeal aead key p = .ok (List.zipWith (fun nonce q => aead.encrypt key nonce [] q)
        (streamNonces 0 (pieces chunkSize p).length) (pieces chunkSize p)).flatten) ∧
    (∀ p c c', streamSeal aead key p = .ok c → Unforged aead key p c' → c' ≠ c →
      streamOpen aead key c' = none) := by
  refine ⟨fun p c => streamOpen_eq_some_iff key h, ?_, ?_⟩
  · intro p hlen
    have hcount : (pieces chunkSize p).length ≤ maxChunkCount :=
      length_pieces_le chunkSize_pos (k := maxChunkCount - 1) hlen
    exact ⟨streamNonces_nodup (by rwa [Nat.zero_add]), (streamSeal_eq_ok key).mpr ⟨hcount, rfl⟩⟩
  · intro p c c' hseal hunforged hne
    rw [Option.eq_none_iff_forall_not_mem]
    intro p' hopen
    exact hne (eq_of_streamOpen_unforged key h hseal hunforged hopen)

end Cipher

/-- The key of 32 equal bytes. -/
def sampleKey : FixedBytes 32 := ⟨List.replicate 32 0x42, List.length_replicate⟩

/-- ChaCha20-Poly1305 on the one chunk `hello` under the sample key. -/
def sampleCipher : StreamCipher where
  keystream key nonce i :=
    if key = sampleKey ∧ nonce = chunkNonce 0 true then [0x10, 0x3e, 0x69, 0x3d, 0x43].getD i 0
    else 0
  tag key nonce aad ciphertext :=
    if key = sampleKey ∧ nonce = chunkNonce 0 true ∧ aad = [] ∧
        ciphertext = [0x78, 0x5b, 0x05, 0x51, 0x2c] then
      ⟨[0xa0, 0xe1, 0xc8, 0xc2, 0xa3, 0xc1, 0x2f, 0xb9, 0x45, 0x9e, 0x9d, 0xbc, 0x84, 0x2c,
          0x99, 0xbd], rfl⟩
    else ⟨List.replicate 16 0, List.length_replicate⟩

/-- The word `hello` sealed. -/
def sampleSealed : List UInt8 :=
  [0x78, 0x5b, 0x05, 0x51, 0x2c, 0xa0, 0xe1, 0xc8, 0xc2, 0xa3, 0xc1, 0x2f, 0xb9, 0x45,
    0x9e, 0x9d, 0xbc, 0x84, 0x2c, 0x99, 0xbd]

theorem streamSeal_hello :
    streamSeal sampleCipher.aead sampleKey (utf8Bytes "hello") = .ok sampleSealed := by
  rw [streamSeal_eq_ok, pieces_of_le (by decide)]
  decide

/-- The one chunk opens to the word. -/
theorem stream_bijection_hello :
    streamOpen sampleCipher.aead sampleKey sampleSealed = some (utf8Bytes "hello") :=
  ((stream_bijection sampleKey sampleCipher.lawful).1 _ _).mpr streamSeal_hello

end Label309
