import Label309.Client.ChunkRetry

/-!
# The chunks of a source in memory

The bounds of a chunk are products of numbers that the gateway names. They are right while the
product of the index and the chunk size fits a word, and so for every chunk below the declared
total.
-/
namespace Label309
open Traced

section Sizes
variable (session : SessionGrid)

/-- The length of a chunk. Nothing past the total. -/
def gridChunkSize (i : ℕ) : ℕ :=
  min session.chunkBytes.toNat (session.totalBytes.toNat - i * session.chunkBytes.toNat)

/-- How many chunks the total takes. -/
def chunksOfTotal : ℕ :=
  (session.totalBytes.toNat + session.chunkBytes.toNat - 1) / session.chunkBytes.toNat

end Sizes

section Grid
variable {session : SessionGrid} {n : ℕ}

theorem min_succ_mul (i c t : ℕ) : min ((i + 1) * c) t = min (i * c) t + min c (t - i * c) := by
  rw [Nat.succ_mul]
  omega

theorem lt_chunksOfTotal_iff (hchunk : 0 < session.chunkBytes.toNat) :
    n < chunksOfTotal session ↔ n * session.chunkBytes.toNat < session.totalBytes.toNat := by
  rw [chunksOfTotal, Nat.lt_div_iff_mul_lt hchunk]
  omega

theorem total_le_mul_chunksOfTotal (hchunk : 0 < session.chunkBytes.toNat) :
    session.totalBytes.toNat ≤ chunksOfTotal session * session.chunkBytes.toNat :=
  Nat.le_of_not_lt fun hlt => absurd ((lt_chunksOfTotal_iff hchunk).mpr hlt) (lt_irrefl _)

theorem toNat_mul_of_lt {index : UInt32} {c : UInt64} (h : index.toNat * c.toNat < 2 ^ 64) :
    (index.toUInt64 * c).toNat = index.toNat * c.toNat := by
  rw [UInt64.toNat_mul, UInt32.toNat_toUInt64, Nat.mod_eq_of_lt h]

/-- The span of the first chunks, while the product does not wrap. -/
theorem toNat_chunkSpanBytes {i : UInt32} (h : i.toNat * session.chunkBytes.toNat < 2 ^ 64) :
    (chunkSpanBytes session i).toNat =
      min (i.toNat * session.chunkBytes.toNat) session.totalBytes.toNat := by
  rw [chunkSpanBytes, UInt64.toNat_min, toNat_mul_of_lt h]

end Grid

section Read
variable {σ : Type} {host : UploadHost σ} {b : List UInt8} {session : SessionGrid}

/-- The chunk at an index by the bounds as numbers. -/
def exactChunk (b : List UInt8) (session : SessionGrid) (index : UInt32) :
    Except ResumableUploadError (List UInt8) :=
  let start := index.toNat * session.chunkBytes.toNat
  let stop := min ((index.toNat + 1) * session.chunkBytes.toNat) session.totalBytes.toNat
  if session.totalBytes.toNat ≤ start then .ok []
  else if stop ≤ b.length then .ok ((b.drop start).take (stop - start))
  else .error (.sourceTruncated index (UInt64.ofNat start) (UInt64.ofNat b.length))

/-- What is claimed of the chunk at an index and of the span before it. The product of the index and
the chunk size is the number itself: an overflow panics in a build that checks for it. -/
structure GridExact (host : UploadHost σ) (b : List UInt8) (session : SessionGrid)
    (index : UInt32) : Prop where
  product : (index.toUInt64 * session.chunkBytes).toNat =
    index.toNat * session.chunkBytes.toNat
  chunk : ∀ w, exec (readChunk host (.bytes b) index session.chunkBytes session.totalBytes) w =
    some (exactChunk b session index, w)
  span : (chunkSpanBytes session index).toNat =
    min (index.toNat * session.chunkBytes.toNat) session.totalBytes.toNat

/-- A chunk whose product does not wrap. -/
theorem exec_readChunk_bytes (hlength : b.length < 2 ^ 64)
    (hchunk : 0 < session.chunkBytes.toNat) {index : UInt32}
    (h : index.toNat * session.chunkBytes.toNat < 2 ^ 64) (w : World σ Exchange) :
    exec (readChunk host (.bytes b) index session.chunkBytes session.totalBytes) w =
      some (exactChunk b session index, w) := by
  let offset := index.toUInt64 * session.chunkBytes
  have hoffset : offset.toNat = index.toNat * session.chunkBytes.toNat := toNat_mul_of_lt h
  have hlen : (UInt64.ofNat b.length).toNat = b.length := UInt64.toNat_ofNat_of_lt' hlength
  rw [readChunk, exactChunk]
  by_cases htotal : session.totalBytes ≤ offset
  · rw [if_pos htotal, if_pos (hoffset ▸ UInt64.le_iff_toNat_le.mp htotal)]
    rfl
  have hlt : offset.toNat < session.totalBytes.toNat :=
    Nat.lt_of_not_le fun hle => htotal (UInt64.le_iff_toNat_le.mpr hle)
  rw [if_neg htotal, if_neg (by omega)]
  let want := min (saturatingSub64 session.totalBytes offset) session.chunkBytes
  have hle : offset ≤ session.totalBytes := UInt64.le_iff_toNat_le.mpr hlt.le
  have hwant : want.toNat =
      min (session.totalBytes.toNat - offset.toNat) session.chunkBytes.toNat := by
    rw [UInt64.toNat_min, saturatingSub64, if_pos hle, UInt64.toNat_sub_of_le _ _ hle]
  have hfits : offset.toNat + want.toNat < 2 ^ 64 := by
    have htop := session.totalBytes.toNat_lt
    omega
  have hstop : (saturatingAdd64 offset want).toNat =
      min ((index.toNat + 1) * session.chunkBytes.toNat) session.totalBytes.toNat := by
    rw [saturatingAdd64, if_pos hfits, UInt64.toNat_add, Nat.mod_eq_of_lt hfits, hwant, hoffset,
      Nat.succ_mul]
    omega
  have htruncated : (UInt64.ofNat b.length ≤ offset ∨
      UInt64.ofNat b.length < saturatingAdd64 offset want) ↔
      ¬ min ((index.toNat + 1) * session.chunkBytes.toNat) session.totalBytes.toNat ≤ b.length := by
    rw [UInt64.le_iff_toNat_le, UInt64.lt_iff_toNat_lt, hstop, hlen, hoffset, Nat.succ_mul]
    omega
  by_cases hfit : min ((index.toNat + 1) * session.chunkBytes.toNat) session.totalBytes.toNat ≤
      b.length
  · rw [if_pos hfit]
    dsimp only
    rw [if_neg fun hout => htruncated.mp hout hfit, hstop, hoffset]
    rfl
  · have hstart : offset = UInt64.ofNat (index.toNat * session.chunkBytes.toNat) := by
      apply UInt64.toNat_inj.mp
      rw [hoffset, UInt64.toNat_ofNat_of_lt' h]
    rw [if_neg hfit, ← hstart]
    dsimp only
    rw [if_pos (htruncated.mpr hfit)]
    rfl

/-! ## All chunks -/

/-- A chunk below the total does not wrap. -/
theorem mul_lt_of_lt_chunksOfTotal (hchunk : 0 < session.chunkBytes.toNat) {i : ℕ}
    (hi : i < chunksOfTotal session) : i * session.chunkBytes.toNat < 2 ^ 64 :=
  ((lt_chunksOfTotal_iff hchunk).mp hi).trans session.totalBytes.toNat_lt

/-- The first chunks of a source are its first bytes, up to the total. -/
theorem flatten_chunks (b : List UInt8) (c t n : ℕ) :
    ((List.range n).map fun i => (b.drop (i * c)).take (min ((i + 1) * c) t - i * c)).flatten =
      b.take (min (n * c) t) := by
  induction n with
  | zero => simp
  | succ n ih =>
      rw [List.range_succ, List.map_append, List.flatten_append, ih, List.map_singleton,
        List.flatten_singleton]
      by_cases ht : t ≤ n * c
      · have hempty : min ((n + 1) * c) t - n * c = 0 := by omega
        have hsame : min ((n + 1) * c) t = min (n * c) t := by
          rw [Nat.succ_mul]
          omega
        rw [hempty, List.take_zero, List.append_nil, hsame]
      · have hsplit : min ((n + 1) * c) t = n * c + (min ((n + 1) * c) t - n * c) := by
          rw [Nat.succ_mul]
          omega
        rw [min_eq_left (Nat.le_of_not_le ht), ← List.take_add, ← hsplit]

/-- **The chunks of a source are exact while the product of index and chunk size fits a word.** Those
below a total that the source has are the source up to it. -/
theorem gridExact_iff (host : UploadHost σ) (hlength : b.length < 2 ^ 64)
    (hchunk : 1 ≤ session.chunkBytes.toNat) :
    (∀ index, GridExact host b session index ↔
      index.toNat * session.chunkBytes.toNat < 2 ^ 64) ∧
    (session.totalBytes.toNat ≤ b.length → ∀ indices : List UInt32,
      indices.map UInt32.toNat = List.range (chunksOfTotal session) →
      ∃ chunks : List (List UInt8), chunks.flatten = b.take session.totalBytes.toNat ∧
        List.Forall₂ (fun index chunk => ∀ w, exec (readChunk host (.bytes b) index
          session.chunkBytes session.totalBytes) w = some (.ok chunk, w)) indices chunks) := by
  refine ⟨?_, ?_⟩
  · intro index
    constructor
    · intro hexact
      rw [← hexact.product]
      exact UInt64.toNat_lt _
    · intro hfits
      exact ⟨toNat_mul_of_lt hfits, exec_readChunk_bytes hlength hchunk hfits,
        toNat_chunkSpanBytes hfits⟩
  · intro htotal indices hindices
    let chunkAt (i : ℕ) : List UInt8 := (b.drop (i * session.chunkBytes.toNat)).take
      (min ((i + 1) * session.chunkBytes.toNat) session.totalBytes.toNat -
        i * session.chunkBytes.toNat)
    refine ⟨indices.map fun index => chunkAt index.toNat, ?_, ?_⟩
    · have hmap : (indices.map fun index => chunkAt index.toNat) =
          (List.range (chunksOfTotal session)).map chunkAt := by
        rw [← hindices, List.map_map]
        rfl
      rw [hmap, flatten_chunks, min_eq_right (total_le_mul_chunksOfTotal hchunk)]
    · rw [List.forall₂_map_right_iff, List.forall₂_same]
      intro index hindex w
      have hlt : index.toNat < chunksOfTotal session := by
        rw [← List.mem_range, ← hindices]
        exact List.mem_map_of_mem hindex
      have hbelow := (lt_chunksOfTotal_iff hchunk).mp hlt
      rw [exec_readChunk_bytes hlength hchunk (mul_lt_of_lt_chunksOfTotal hchunk hlt), exactChunk,
        if_neg (by omega), if_pos (by omega)]

end Read

/-! ## Two grids -/

/-- A source of ten bytes in chunks of four. -/
def smallGrid : SessionGrid where
  sessionId := "s"
  chunkBytes := 4
  chunkCount := 3
  totalBytes := 10
  declaredSha256Hex := "aa"
  missing := [0, 1, 2]

/-- The third chunk is exact, and the three are the source. -/
theorem gridExact_smallGrid : GridExact (noFiles Unit) (List.replicate 10 7) smallGrid 2 ∧
    ∃ chunks : List (List UInt8), chunks.flatten = (List.replicate 10 7).take 10 ∧
      List.Forall₂ (fun index chunk => ∀ w, exec (readChunk (noFiles Unit)
        (.bytes (List.replicate 10 7)) index smallGrid.chunkBytes smallGrid.totalBytes) w =
          some (.ok chunk, w)) [0, 1, 2] chunks := by
  have hgrid := @gridExact_iff Unit (List.replicate 10 7) smallGrid (noFiles Unit) (by decide)
    (by decide)
  exact ⟨(hgrid.1 2).mpr (by decide), hgrid.2 (by decide) [0, 1, 2] (by decide)⟩

/-- The same source in chunks of half of all words. -/
def wrappingGrid : SessionGrid := { smallGrid with chunkBytes := 9223372036854775808 }

/-- Its third chunk begins at zero, and is the whole source. -/
theorem not_gridExact_wrappingGrid :
    ¬ GridExact (noFiles Unit) (List.replicate 10 7) wrappingGrid 2 := by
  intro hexact
  have hread : exec (readChunk (noFiles Unit) (.bytes (List.replicate 10 7)) 2
      wrappingGrid.chunkBytes wrappingGrid.totalBytes) ⟨(), []⟩ =
      some (.ok (List.replicate 10 7), ⟨(), []⟩) := by
    rw [readChunk, if_neg (by decide)]
    dsimp only
    rw [if_neg (by decide)]
    rfl
  have hempty : exactChunk (List.replicate 10 7) wrappingGrid 2 = .ok [] := by
    rw [exactChunk, if_pos (by decide)]
  have hchunk := hexact.chunk ⟨(), []⟩
  rw [hempty] at hchunk
  cases hread.symm.trans hchunk

end Label309
