import Label309.Client.ChunkGrid
import Label309.Client.ProgressTicks

/-!
# What the ticks count

The bytes of a tick are the span up to a chunk. They are the bytes that the gateway holds exactly
when the missing chunks are the last ones, in their order.
-/
namespace Label309
open Traced

section Held
variable (session : SessionGrid)

/-- The grid covers the total, and every missing chunk is one of it. -/
structure SessionGrid.WellFormed : Prop where
  chunkPos : 1 ≤ session.chunkBytes.toNat
  count : session.chunkCount.toNat = chunksOfTotal session
  nodup : session.missing.Nodup
  ofGrid : ∀ i ∈ session.missing, i.toNat < session.chunkCount.toNat

/-- The gateway holds a chunk from the start, or once it is acknowledged. -/
def SessionGrid.Holds (acked : List UInt32) (i : ℕ) : Prop :=
  UInt32.ofNat i ∈ session.missing → UInt32.ofNat i ∈ acked

instance (acked : List UInt32) : DecidablePred (session.Holds acked) := by
  unfold SessionGrid.Holds
  infer_instance

/-- The sizes of the chunks that the gateway holds, summed. -/
def heldBytes (acked : List UInt32) : ℕ :=
  ∑ i ∈ Finset.range session.chunkCount.toNat with session.Holds acked i, gridChunkSize session i

/-- The sizes of chunks that are to be sent, summed. -/
def outstanding (rest : List UInt32) : ℕ :=
  (rest.map fun i => gridChunkSize session i.toNat).sum

/-- **What is claimed of the ticks of a run**: each reports the bytes that the gateway holds after
the chunks that are acknowledged so far. -/
structure CountsHeld (ticks : List UploadProgress) : Prop where
  counted : ∀ seen tick rest, ticks = seen ++ tick :: rest → tick.bytesSent.toNat =
    heldBytes session ((seen ++ [tick]).map UploadProgress.chunkIndex)
  nondecreasing : ticks.Pairwise fun a b => a.bytesSent ≤ b.bytesSent
  bounded : ∀ tick ∈ ticks, tick.bytesSent ≤ session.totalBytes
  complete : ∀ seen tick rest, ticks = seen ++ tick :: rest →
    (tick.bytesSent = session.totalBytes ↔
      ∀ i ∈ session.missing, i ∈ (seen ++ [tick]).map UploadProgress.chunkIndex)

end Held

section Sums
variable {session : SessionGrid}

theorem sum_gridChunkSize (session : SessionGrid) (n : ℕ) :
    ∑ i ∈ Finset.range n, gridChunkSize session i =
      min (n * session.chunkBytes.toNat) session.totalBytes.toNat := by
  induction n with
  | zero => simp
  | succ n ih => rw [Finset.sum_range_succ, ih, min_succ_mul, gridChunkSize]

theorem toNat_ofNat_of_lt_count {i : ℕ} (h : i < session.chunkCount.toNat) :
    (UInt32.ofNat i).toNat = i :=
  UInt32.toNat_ofNat_of_lt' (h.trans session.chunkCount.toNat_lt)

theorem toNat_saturatingSucc32 (session : SessionGrid) {i : UInt32}
    (hi : i.toNat < session.chunkCount.toNat) :
    (saturatingSucc32 i).toNat = i.toNat + 1 := by
  have hcount := session.chunkCount.toNat_lt
  have hlt : i.toNat + 1 < 2 ^ 32 := by omega
  rw [saturatingSucc32, if_pos hlt, UInt32.toNat_add, UInt32.toNat_one, Nat.mod_eq_of_lt hlt]

theorem outstanding_cons (i : UInt32) (rest : List UInt32) : outstanding session (i :: rest) =
    gridChunkSize session i.toNat + outstanding session rest := by
  rw [outstanding, List.map_cons, List.sum_cons]
  rfl

theorem heldBytes_mono {acked acked' : List UInt32} (h : acked ⊆ acked') :
    heldBytes session acked ≤ heldBytes session acked' := by
  apply Finset.sum_le_sum_of_subset
  apply Finset.monotone_filter_right
  intro i _ hholds hmissing
  exact h (hholds hmissing)

section WellFormed
variable (hgrid : session.WellFormed)
include hgrid

theorem mul_lt_total {i : ℕ} (hi : i < session.chunkCount.toNat) :
    i * session.chunkBytes.toNat < session.totalBytes.toNat :=
  (lt_chunksOfTotal_iff hgrid.chunkPos).mp (hgrid.count ▸ hi)

theorem total_le_mul :
    session.totalBytes.toNat ≤ session.chunkCount.toNat * session.chunkBytes.toNat :=
  hgrid.count ▸ total_le_mul_chunksOfTotal hgrid.chunkPos

theorem sum_grid : ∑ i ∈ Finset.range session.chunkCount.toNat, gridChunkSize session i =
    session.totalBytes.toNat := by
  rw [sum_gridChunkSize, min_eq_right (total_le_mul hgrid)]

/-- Every chunk of the grid has bytes. -/
theorem gridChunkSize_pos {i : ℕ} (hi : i < session.chunkCount.toNat) :
    0 < gridChunkSize session i := by
  have hlt := mul_lt_total hgrid hi
  have hpos := hgrid.chunkPos
  rw [gridChunkSize]
  omega

/-- The bytes that are held and those that are to be sent are all bytes. -/
theorem heldBytes_add_outstanding {sent rest : List UInt32} (h : session.missing = sent ++ rest) :
    heldBytes session sent + outstanding session rest = session.totalBytes.toNat := by
  have hnodup := hgrid.nodup
  rw [h] at hnodup
  have hrest : outstanding session rest = ∑ i ∈ Finset.range session.chunkCount.toNat with
      ¬ session.Holds sent i, gridChunkSize session i := by
    have hmap : outstanding session rest =
        ((rest.map UInt32.toNat).map (gridChunkSize session)).sum := by
      rw [outstanding, List.map_map]
      rfl
    have hinj : Function.Injective UInt32.toNat := fun _ _ => UInt32.toNat_inj.mp
    rw [hmap, ← List.sum_toFinset _ (hnodup.of_append_right.map hinj)]
    congr 1
    ext i
    simp only [List.mem_toFinset, List.mem_map, Finset.mem_filter, Finset.mem_range,
      SessionGrid.Holds, not_forall]
    constructor
    · intro hi
      obtain ⟨j, hj, hji⟩ := hi
      have hmem : j ∈ session.missing := by
        rw [h]
        exact List.mem_append_right _ hj
      have hof : UInt32.ofNat i = j := by rw [← hji, UInt32.ofNat_toNat]
      rw [hof, ← hji]
      exact ⟨hgrid.ofGrid j hmem, hmem, fun hsent => (List.disjoint_of_nodup_append hnodup) hsent hj⟩
    · intro hi
      obtain ⟨hlt, hmem, hnot⟩ := hi
      rw [h] at hmem
      exact ⟨_, (List.mem_append.mp hmem).resolve_left hnot, toNat_ofNat_of_lt_count hlt⟩
  rw [hrest, heldBytes, Finset.sum_filter_add_sum_filter_not, sum_grid hgrid]

theorem heldBytes_le (acked : List UInt32) :
    heldBytes session acked ≤ session.totalBytes.toNat := by
  rw [← sum_grid hgrid]
  exact Finset.sum_le_sum_of_subset (Finset.filter_subset _ _)

theorem heldBytes_eq_total_iff (acked : List UInt32) :
    heldBytes session acked = session.totalBytes.toNat ↔ ∀ i ∈ session.missing, i ∈ acked := by
  constructor
  · intro htotal i hi
    by_contra hnot
    have hlt : heldBytes session acked < session.totalBytes.toNat := by
      rw [← sum_grid hgrid]
      refine Finset.sum_lt_sum_of_subset (i := i.toNat) (Finset.filter_subset _ _)
        (Finset.mem_range.mpr (hgrid.ofGrid i hi)) ?_ (gridChunkSize_pos hgrid (hgrid.ofGrid i hi))
        fun _ _ _ => Nat.zero_le _
      rw [Finset.mem_filter, SessionGrid.Holds, UInt32.ofNat_toNat]
      exact fun hholds => hnot (hholds.2 hi)
    omega
  · intro hall
    have hholds : ∀ i ∈ Finset.range session.chunkCount.toNat, session.Holds acked i :=
      fun i _ hmissing => hall _ hmissing
    rw [heldBytes, Finset.filter_true_of_mem hholds, sum_grid hgrid]

/-- All that is claimed follows from what each tick counts. -/
theorem countsHeld_of_counted {ticks : List UploadProgress}
    (hcounted : ∀ seen tick rest, ticks = seen ++ tick :: rest → tick.bytesSent.toNat =
      heldBytes session ((seen ++ [tick]).map UploadProgress.chunkIndex)) :
    CountsHeld session ticks := by
  refine ⟨hcounted, ?_, ?_, ?_⟩
  · rw [List.pairwise_iff_getElem]
    intro i j hi hj hlt
    have hat : ∀ k (hk : k < ticks.length), ticks[k].bytesSent.toNat =
        heldBytes session ((ticks.take (k + 1)).map UploadProgress.chunkIndex) := by
      intro k hk
      rw [hcounted (ticks.take k) ticks[k] (ticks.drop (k + 1)) (by simp), List.take_concat_get']
    rw [UInt64.le_iff_toNat_le, hat i hi, hat j hj]
    exact heldBytes_mono (List.map_subset _ (List.take_subset_take_left _ (by omega)))
  · intro tick htick
    obtain ⟨seen, rest, hsplit⟩ := List.append_of_mem htick
    rw [UInt64.le_iff_toNat_le, hcounted seen tick rest hsplit]
    exact heldBytes_le hgrid _
  · intro seen tick rest hsplit
    rw [← UInt64.toNat_inj, hcounted seen tick rest hsplit, heldBytes_eq_total_iff hgrid]

end WellFormed

/-! ## The first pass -/

/-- Each tick and what is left to be sent are all bytes together. -/
def Tallies (session : SessionGrid) : UInt64 → List UInt32 → Prop
  | _, [] => True
  | bytesAcked, i :: rest =>
      let acked := max (chunkSpanBytes session (saturatingSucc32 i)) bytesAcked
      acked.toNat + outstanding session rest = session.totalBytes.toNat ∧
        Tallies session acked rest

theorem tallies_iff {bytesAcked : UInt64} {rest : List UInt32} :
    Tallies session bytesAcked rest ↔ ∀ seen tick more,
      progressTicks session bytesAcked rest = seen ++ tick :: more →
        tick.bytesSent.toNat + outstanding session (rest.drop (seen.length + 1)) =
          session.totalBytes.toNat := by
  induction rest generalizing bytesAcked with
  | nil =>
      refine ⟨fun _ seen tick more hsplit => ?_, fun _ => trivial⟩
      exact absurd hsplit.symm (by simp [progressTicks])
  | cons i rest ih =>
      rw [Tallies, ih]
      constructor
      · intro h seen tick more hsplit
        rw [progressTicks] at hsplit
        cases seen with
        | nil =>
            cases hsplit
            exact h.1
        | cons first seen =>
            rw [List.cons_append, List.cons.injEq] at hsplit
            exact h.2 seen tick more hsplit.2
      · intro h
        refine ⟨h [] _ _ rfl, ?_⟩
        intro seen tick more hsplit
        exact h (_ :: seen) tick more (by rw [progressTicks, hsplit, List.cons_append])

/-- The ticks of the first pass count what is held exactly when they tally. -/
theorem counted_progressTicks_iff (hgrid : session.WellFormed) {bytesAcked : UInt64} :
    (∀ seen tick rest, progressTicks session bytesAcked session.missing = seen ++ tick :: rest →
      tick.bytesSent.toNat =
        heldBytes session ((seen ++ [tick]).map UploadProgress.chunkIndex)) ↔
      Tallies session bytesAcked session.missing := by
  rw [tallies_iff]
  apply forall_congr'
  intro seen
  apply forall₂_congr
  intro tick rest
  apply imp_congr_right
  intro hsplit
  have hindices := map_chunkIndex_progressTicks session bytesAcked session.missing
  rw [hsplit, ← List.singleton_append, ← List.append_assoc, List.map_append] at hindices
  have hdrop : session.missing.drop (seen.length + 1) = rest.map UploadProgress.chunkIndex := by
    rw [← hindices, List.drop_left' (by simp)]
  have hsum := heldBytes_add_outstanding hgrid hindices.symm
  rw [hdrop]
  omega

/-- The last chunks of the grid in their order tally, and all bytes are acknowledged in the end. -/
theorem tallies_of_range (hgrid : session.WellFormed)
    (hfits : session.chunkCount.toNat * session.chunkBytes.toNat < 2 ^ 64) {first : ℕ}
    {rest : List UInt32} {bytesAcked : UInt64}
    (hrest : rest.map UInt32.toNat = List.range' first rest.length)
    (hend : first + rest.length = session.chunkCount.toNat)
    (hacked : bytesAcked.toNat =
      min (first * session.chunkBytes.toNat) session.totalBytes.toNat) :
    bytesAcked.toNat + outstanding session rest = session.totalBytes.toNat ∧
      Tallies session bytesAcked rest ∧
        ackedAfter session bytesAcked rest = session.totalBytes := by
  induction rest generalizing first bytesAcked with
  | nil =>
      have hall : bytesAcked.toNat = session.totalBytes.toNat := by
        rw [hacked, show first = session.chunkCount.toNat from hend,
          min_eq_right (total_le_mul hgrid)]
      exact ⟨hall, trivial, UInt64.toNat_inj.mp hall⟩
  | cons i rest ih =>
      rw [List.map_cons, List.length_cons, List.range'_succ, List.cons.injEq] at hrest
      rw [List.length_cons] at hend
      obtain ⟨hi, hrest⟩ := hrest
      have hsucc : (saturatingSucc32 i).toNat = first + 1 := by
        rw [toNat_saturatingSucc32 session (by omega), hi]
      have hspan : (chunkSpanBytes session (saturatingSucc32 i)).toNat =
          min ((first + 1) * session.chunkBytes.toNat) session.totalBytes.toNat := by
        have hle : (first + 1) * session.chunkBytes.toNat ≤
            session.chunkCount.toNat * session.chunkBytes.toNat :=
          Nat.mul_le_mul_right _ (by omega)
        rw [toNat_chunkSpanBytes (by rw [hsucc]; omega), hsucc]
      have hmax : (max (chunkSpanBytes session (saturatingSucc32 i)) bytesAcked).toNat =
          min ((first + 1) * session.chunkBytes.toNat) session.totalBytes.toNat := by
        rw [UInt64.toNat_max, hspan, hacked, Nat.succ_mul]
        omega
      obtain ⟨hsum, htallies, hafter⟩ := ih hrest (by omega) hmax
      refine ⟨?_, ⟨hsum, htallies⟩, hafter⟩
      have hstep := min_succ_mul first session.chunkBytes.toNat session.totalBytes.toNat
      rw [outstanding_cons, hi, gridChunkSize]
      omega

/-! ## What tallies -/

/-- All bytes are acknowledged after chunks that tally. -/
theorem ackedAfter_of_tallies {bytesAcked : UInt64} {rest : List UInt32} (hne : rest ≠ [])
    (h : Tallies session bytesAcked rest) :
    ackedAfter session bytesAcked rest = session.totalBytes := by
  induction rest generalizing bytesAcked with
  | nil => exact absurd rfl hne
  | cons i rest ih =>
      by_cases hlast : rest = []
      · subst hlast
        exact UInt64.toNat_inj.mp h.1
      · exact ih hlast h.2

/-- Chunks that each end before the total leave some bytes unacknowledged. -/
theorem ackedAfter_lt {bytesAcked : UInt64} {rest : List UInt32}
    (hacked : bytesAcked.toNat < session.totalBytes.toNat)
    (hspan : ∀ i ∈ rest,
      (chunkSpanBytes session (saturatingSucc32 i)).toNat < session.totalBytes.toNat) :
    (ackedAfter session bytesAcked rest).toNat < session.totalBytes.toNat := by
  induction rest generalizing bytesAcked with
  | nil => exact hacked
  | cons i rest ih =>
      apply ih
      · rw [UInt64.toNat_max]
        exact max_lt (hspan i List.mem_cons_self) hacked
      · intro j hj
        exact hspan j (List.mem_cons_of_mem i hj)

section WellFormed
variable (hgrid : session.WellFormed)
include hgrid

/-- A chunk before the last is full. -/
theorem gridChunkSize_of_succ_lt {i : ℕ} (hi : i + 1 < session.chunkCount.toNat) :
    gridChunkSize session i = session.chunkBytes.toNat := by
  have hlt := mul_lt_total hgrid hi
  rw [Nat.succ_mul] at hlt
  rw [gridChunkSize]
  omega

/-- The span before the last chunk. -/
theorem toNat_chunkSpanBytes_of_lt {i : UInt32} (hi : i.toNat < session.chunkCount.toNat) :
    (chunkSpanBytes session i).toNat = i.toNat * session.chunkBytes.toNat ∧
      i.toNat * session.chunkBytes.toNat < session.totalBytes.toNat := by
  have hlt := mul_lt_total hgrid hi
  rw [toNat_chunkSpanBytes (hlt.trans session.totalBytes.toNat_lt), min_eq_left hlt.le]
  exact ⟨rfl, hlt⟩

/-- The bytes of chunks that include the last one, which may be short. -/
theorem outstanding_of_last {rest : List UInt32} (hnodup : rest.Nodup)
    (hrange : ∀ i ∈ rest, i.toNat < session.chunkCount.toNat)
    (hlast : ∃ i ∈ rest, i.toNat + 1 = session.chunkCount.toNat) :
    outstanding session rest + session.chunkCount.toNat * session.chunkBytes.toNat =
      rest.length * session.chunkBytes.toNat + session.totalBytes.toNat := by
  induction rest with
  | nil =>
      obtain ⟨i, hi, -⟩ := hlast
      cases hi
  | cons j rest ih =>
      rw [List.nodup_cons] at hnodup
      rw [outstanding_cons, List.length_cons, Nat.succ_mul]
      by_cases hj : j.toNat + 1 = session.chunkCount.toNat
      · have hfull : outstanding session rest = rest.length * session.chunkBytes.toNat := by
          have hsizes : ∀ i ∈ rest, gridChunkSize session i.toNat = session.chunkBytes.toNat := by
            intro i hi
            have hne : i.toNat ≠ j.toNat :=
              fun heq => hnodup.1 (UInt32.toNat_inj.mp heq ▸ hi)
            have hlt := hrange i (List.mem_cons_of_mem j hi)
            exact gridChunkSize_of_succ_lt hgrid (by omega)
          rw [outstanding, List.map_congr_left hsizes, List.map_const', List.sum_replicate,
            smul_eq_mul]
        have hshort := sum_gridChunkSize session (j.toNat + 1)
        have hbefore := sum_gridChunkSize session j.toNat
        have hlt := mul_lt_total hgrid (hrange j List.mem_cons_self)
        have htotal := total_le_mul hgrid
        rw [← hj] at htotal
        rw [Finset.sum_range_succ, hbefore, min_eq_left hlt.le, min_eq_right htotal] at hshort
        rw [hfull, ← hj, Nat.succ_mul]
        omega
      · have hlt := hrange j List.mem_cons_self
        have hrest : ∃ i ∈ rest, i.toNat + 1 = session.chunkCount.toNat := by
          obtain ⟨i, hi, heq⟩ := hlast
          rcases List.mem_cons.mp hi with rfl | hi
          · exact absurd heq hj
          · exact ⟨i, hi, heq⟩
        have hih := ih hnodup.2 (fun i hi => hrange i (List.mem_cons_of_mem j hi)) hrest
        rw [gridChunkSize_of_succ_lt hgrid (by omega)]
        omega

/-- Chunks that tally and include the last one are in their order. -/
theorem range_of_tallies
    (hfits : session.chunkCount.toNat * session.chunkBytes.toNat < 2 ^ 64) {first : ℕ}
    {rest : List UInt32} {bytesAcked : UInt64}
    (hrange : ∀ i ∈ rest, i.toNat < session.chunkCount.toNat)
    (hlast : ∃ i ∈ rest, i.toNat + 1 = session.chunkCount.toNat)
    (hacked : bytesAcked.toNat = first * session.chunkBytes.toNat)
    (hsum : first * session.chunkBytes.toNat + outstanding session rest =
      session.totalBytes.toNat)
    (h : Tallies session bytesAcked rest) :
    rest.map UInt32.toNat = List.range' first rest.length := by
  have hpos := hgrid.chunkPos
  induction rest generalizing first bytesAcked with
  | nil => rfl
  | cons i rest ih =>
      have hi := hrange i List.mem_cons_self
      have htail : ∀ j ∈ rest, j.toNat < session.chunkCount.toNat :=
        fun j hj => hrange j (List.mem_cons_of_mem i hj)
      rw [outstanding_cons] at hsum
      obtain ⟨hnow, hlater⟩ := h
      rw [UInt64.toNat_max, hacked] at hnow
      have hsucc := toNat_saturatingSucc32 session hi
      by_cases hend : i.toNat + 1 = session.chunkCount.toNat
      · -- The last chunk completes the bytes, so no other is to be sent.
        have htotal := total_le_mul hgrid
        rw [toNat_chunkSpanBytes (by rwa [hsucc, hend]), hsucc, hend, min_eq_right htotal] at hnow
        have hnone : rest = [] := by
          rw [List.eq_nil_iff_forall_not_mem]
          intro j hj
          have hmem : gridChunkSize session j.toNat ∈
              rest.map fun i => gridChunkSize session i.toNat := List.mem_map_of_mem hj
          have hle := List.single_le_sum (fun _ _ => Nat.zero_le _) _ hmem
          have hsize := gridChunkSize_pos hgrid (htail j hj)
          rw [outstanding] at hnow
          omega
        subst hnone
        have hlt := mul_lt_total hgrid hi
        have hfirst : first * session.chunkBytes.toNat = i.toNat * session.chunkBytes.toNat := by
          rw [← hend, Nat.succ_mul] at htotal
          rw [gridChunkSize] at hsum
          have hzero : outstanding session [] = 0 := rfl
          omega
        rw [Nat.eq_of_mul_eq_mul_right hpos hfirst]
        rfl
      · have hlt : i.toNat + 1 < session.chunkCount.toNat := by omega
        have hspan := (toNat_chunkSpanBytes_of_lt hgrid (hsucc.trans_lt hlt)).1
        rw [gridChunkSize_of_succ_lt hgrid hlt] at hsum
        have hfirst : (i.toNat + 1) * session.chunkBytes.toNat =
            (first + 1) * session.chunkBytes.toNat := by
          rw [hspan, hsucc] at hnow
          rw [Nat.succ_mul first]
          omega
        have heq : i.toNat = first := Nat.succ.inj (Nat.eq_of_mul_eq_mul_right hpos hfirst)
        have hacked' : (max (chunkSpanBytes session (saturatingSucc32 i)) bytesAcked).toNat =
            (first + 1) * session.chunkBytes.toNat := by
          rw [UInt64.toNat_max, hspan, hsucc, hacked, heq, Nat.succ_mul]
          omega
        have hrest : ∃ j ∈ rest, j.toNat + 1 = session.chunkCount.toNat := by
          obtain ⟨j, hj, hjend⟩ := hlast
          rcases List.mem_cons.mp hj with rfl | hj
          · exact absurd hjend hend
          · exact ⟨j, hj, hjend⟩
        rw [List.map_cons, List.length_cons, List.range'_succ, heq,
          ih htail hrest hacked' (by rw [Nat.succ_mul]; omega) hlater]

end WellFormed

end Sums

/-! ## A gateway that acknowledges every chunk -/

/-- Every chunk is acknowledged, every completion refused, and the first chunk reported missing. -/
def ackingConfig : NamespaceConfig Unit where
  apiKey := none
  baseUrl := "https://gateway.example"
  transport := fun _ method _ _ s =>
    match method with
    | .get => (.ok ⟨200, missingBody, none, none⟩, s)
    | .post => (.ok ⟨409, incompleteBody, none, none⟩, s)
    | .put => (.ok ⟨200, ackBody, none, none⟩, s)
    | .delete => (.ok ⟨204, [], none, none⟩, s)

/-- An upload of so many zero bytes. -/
def zerosInput (n : ℕ) : ResumableUploadInput Unit :=
  { plainInput Unit with source := .bytes (List.replicate n 0) }

section Acking
variable (session : SessionGrid)

def ackingSend (missing : List UInt32) (bytesAcked : UInt64) : Upload (Watched Unit) UInt64 :=
  sendMissingChunks completionJson completionBodies noDigest (watchedHost (noFiles Unit))
    (watchedConfig ackingConfig) (watchedInput (zerosInput session.totalBytes.toNat)) session
    missing bytesAcked

def ackingComplete (attempts : ℕ) (bytesAcked : UInt64) :
    Upload (Watched Unit) ResumableUploadResult :=
  completeAttempts completionJson completionBodies noDigest (watchedHost (noFiles Unit))
    (watchedConfig ackingConfig) (watchedInput (zerosInput session.totalBytes.toNat)) 1 session
    (completeUrl ackingConfig session.sessionId)
    (jsonHeaders none (some (defaultIdempotencyKey session.declaredSha256Hex))) attempts bytesAcked

def ackingDrive : Upload (Watched Unit) ResumableUploadResult :=
  driveSession completionJson completionBodies noDigest (watchedHost (noFiles Unit))
    (watchedConfig ackingConfig) (watchedInput (zerosInput session.totalBytes.toNat)) 1 session

variable {session}

theorem exec_ackingSend (hchunk : 1 ≤ session.chunkBytes.toNat) {missing : List UInt32}
    (hmissing : ∀ i ∈ missing, i.toNat * session.chunkBytes.toNat < 2 ^ 64) (bytesAcked : UInt64)
    (w : World (Watched Unit) Exchange) :
    ∃ w', exec (ackingSend session missing bytesAcked) w =
        some (.ok (ackedAfter session bytesAcked missing), w') ∧
      w'.host.ticks = w.host.ticks ++ progressTicks session bytesAcked missing := by
  have hruns : ∃ acked w', exec (ackingSend session missing bytesAcked) w =
      some (.ok acked, w') := by
    induction missing generalizing bytesAcked w with
    | nil => exact ⟨bytesAcked, w, rfl⟩
    | cons i rest ih =>
        have hread : ∃ chunk, exec (readChunk (watchedHost (noFiles Unit))
            (.bytes (List.replicate session.totalBytes.toNat 0)) i session.chunkBytes
            session.totalBytes) w = some (.ok chunk, w) := by
          rw [exec_readChunk_bytes (by simpa using session.totalBytes.toNat_lt) hchunk
            (hmissing i List.mem_cons_self), exactChunk]
          by_cases htotal : session.totalBytes.toNat ≤ i.toNat * session.chunkBytes.toNat
          · exact ⟨[], by rw [if_pos htotal]⟩
          · rw [if_neg htotal, if_pos (by rw [List.length_replicate]; exact min_le_right _ _)]
            exact ⟨_, rfl⟩
        obtain ⟨chunk, hread⟩ := hread
        obtain ⟨w1, hput⟩ : ∃ w1, exec (putChunkWithRetry completionJson completionBodies noDigest
            (watchedConfig ackingConfig)
            (watchedInput (zerosInput session.totalBytes.toNat)) session.sessionId i chunk) w =
              some (.ok ⟨0, 0, true⟩, w1) := ⟨_, rfl⟩
        let tick : UploadProgress := ⟨max (chunkSpanBytes session (saturatingSucc32 i)) bytesAcked,
          session.totalBytes, i, session.chunkCount⟩
        obtain ⟨acked, w', hrest⟩ := ih (fun j hj => hmissing j (List.mem_cons_of_mem i hj))
          tick.bytesSent { w1 with host := { w1.host with ticks := w1.host.ticks ++ [tick] } }
        refine ⟨acked, w', ?_⟩
        have hpoll : exec (isCancelled (watchedInput (zerosInput session.totalBytes.toNat))) w =
            some (.ok false, w) := rfl
        rw [ackingSend, sendMissingChunks]
        refine exec_bind_ok hpoll ?_
        rw [if_neg Bool.false_ne_true]
        refine exec_bind_ok hread ?_
        refine exec_bind_ok hput ?_
        exact exec_bind_ok rfl hrest
  obtain ⟨acked, w', hrun⟩ := hruns
  obtain ⟨sent, -, htells, hend⟩ := tells_sendMissingChunks missing bytesAcked hrun
  obtain ⟨hall, hacked⟩ := hend acked rfl
  refine ⟨w', ?_, ?_⟩
  · rw [hrun, hacked]
  · rw [htells.told, hall]

set_option maxRecDepth 2000 in
/-- Every refused completion is followed by the first chunk. -/
theorem exec_ackingComplete (hchunk : 1 ≤ session.chunkBytes.toNat) (attempts : ℕ)
    (bytesAcked : UInt64) (w : World (Watched Unit) Exchange) :
    ∃ w' more, exec (ackingComplete session attempts bytesAcked) w =
        some (.error (.failed ("session " ++ session.sessionId ++
          " could not be completed after re-sending the missing chunks")), w') ∧
      w'.host.ticks = w.host.ticks ++
        (if attempts = 0 then [] else progressTicks session bytesAcked [0]) ++ more := by
  induction attempts generalizing bytesAcked w with
  | zero => exact ⟨w, [], rfl, by simp⟩
  | succ attempts ih =>
      obtain ⟨w1, hpost, hticks⟩ : ∃ w1, exec (viaHttp (sendRaw (watchedConfig ackingConfig)
          (completeUrl ackingConfig session.sessionId) .post
          (jsonHeaders none (some (defaultIdempotencyKey session.declaredSha256Hex)))
          (.json "\x7b\x7d"))) w = some (.ok ⟨409, incompleteBody, none, none⟩, w1) ∧
          w1.host = w.host := ⟨_, rfl, rfl⟩
      obtain ⟨w2, hstatus, hticks'⟩ : ∃ w2, exec (getStatus completionJson completionBodies
          (watchedConfig ackingConfig) session.sessionId) w1 = some (.ok oneChunkStatus, w2) ∧
          w2.host = w1.host := ⟨_, rfl, rfl⟩
      obtain ⟨w3, hsend, hsent⟩ := @exec_ackingSend session hchunk [0] (by simp) bytesAcked w2
      obtain ⟨w', more, hrest, htold⟩ := ih (ackedAfter session bytesAcked [0]) w3
      refine ⟨w', (if attempts = 0 then [] else
        progressTicks session (ackedAfter session bytesAcked [0]) [0]) ++ more, ?_, ?_⟩
      · have hpoll : exec (isCancelled (watchedInput (zerosInput session.totalBytes.toNat))) w =
            some (.ok false, w) := rfl
        have hbad : throwIfNotOk completionJson ⟨409, incompleteBody, none, none⟩ = .error
            (.http (parseHttpError completionJson ⟨409, incompleteBody, none, none⟩)) := rfl
        rw [ackingComplete, completeAttempts]
        refine exec_bind_ok hpoll ?_
        rw [if_neg Bool.false_ne_true]
        refine exec_bind_ok hpost ?_
        rw [hbad]
        dsimp only
        rw [if_neg (by decide)]
        refine exec_bind_ok hstatus ?_
        rw [if_neg (by decide)]
        exact exec_bind_ok hsend hrest
      · rw [htold, hsent, hticks', hticks, if_neg (Nat.succ_ne_zero attempts),
          List.append_assoc, List.append_assoc]

/-- The ticks of the missing chunks are followed by one of the first chunk. -/
theorem exec_ackingDrive (hgrid : session.WellFormed) :
    ∃ r w' more, exec (ackingDrive session) ⟨⟨(), []⟩, []⟩ = some (r, w') ∧
      w'.host.ticks = progressTicks session (ackedBytes session) session.missing ++
        progressTicks session (ackedAfter session (ackedBytes session) session.missing) [0] ++
          more := by
  have hmissing : ∀ i ∈ session.missing, i.toNat * session.chunkBytes.toNat < 2 ^ 64 := by
    intro i hi
    exact (mul_lt_total hgrid (hgrid.ofGrid i hi)).trans session.totalBytes.toNat_lt
  obtain ⟨w1, hsend, hsent⟩ := exec_ackingSend hgrid.chunkPos hmissing (ackedBytes session)
    ⟨⟨(), []⟩, []⟩
  obtain ⟨w', more, hcomplete, htold⟩ := exec_ackingComplete hgrid.chunkPos
    (completeRetryAttempts + 1) (ackedAfter session (ackedBytes session) session.missing) w1
  have hpass := @exec_orAbandon_of_ne _ completionJson (watchedConfig ackingConfig) _
    session.sessionId _ _ _ _ hsend nofun
  have hend := @exec_orAbandon_of_ne _ completionJson (watchedConfig ackingConfig) _
    session.sessionId _ _ _ _ hcomplete nofun
  refine ⟨_, w', more, exec_bind_ok hpass hend, ?_⟩
  rw [htold, hsent, if_neg (by decide), List.nil_append]

end Acking

/-! ## Every run -/

/-- **What is claimed of all runs of an upload**: the caller is told of each chunk that is
acknowledged, and of the bytes that the gateway then holds. -/
def ProgressCounts (session : SessionGrid) : Prop :=
  ∀ (σ : Type) (json : JsonPrimitives) (bodies : UploadBodies) (sha256 : List UInt8 → Digest)
    (host : UploadHost σ) (config : NamespaceConfig σ) (input : ResumableUploadInput σ) (fuel : ℕ)
    (s : σ) (r : Except ResumableUploadError ResumableUploadResult)
    (w' : World (Watched σ) Exchange),
    exec (driveSession json bodies sha256 (watchedHost host) (watchedConfig config)
      (watchedInput input) fuel session) ⟨⟨s, []⟩, []⟩ = some (r, w') →
    acknowledgedUrls bodies w'.log =
        w'.host.ticks.map (fun tick => chunkUrl config session.sessionId tick.chunkIndex) ∧
      CountsHeld session w'.host.ticks

section Runs
variable {session : SessionGrid}

/-- The missing chunks are the last of the grid, in their order. -/
def SessionGrid.MissingLast (session : SessionGrid) : Prop :=
  session.missing.map UInt32.toNat =
    List.range' (session.chunkCount.toNat - session.missing.length) session.missing.length

instance : DecidablePred SessionGrid.MissingLast := by
  unfold SessionGrid.MissingLast
  infer_instance

theorem length_missing_le (hgrid : session.WellFormed) :
    session.missing.length ≤ session.chunkCount.toNat := by
  have hinj : Function.Injective UInt32.toNat := fun _ _ => UInt32.toNat_inj.mp
  have hsub : session.missing.map UInt32.toNat ⊆ List.range session.chunkCount.toNat := by
    intro n hn
    obtain ⟨i, hi, rfl⟩ := List.mem_map.mp hn
    exact List.mem_range.mpr (hgrid.ofGrid i hi)
  have hle := (hgrid.nodup.map hinj).subperm hsub |>.length_le
  rwa [List.length_map, List.length_range] at hle

/-- How many chunks the gateway holds from the start. -/
theorem toNat_received (hgrid : session.WellFormed) :
    (saturatingSub32 session.chunkCount (UInt32.ofNat session.missing.length)).toNat =
      session.chunkCount.toNat - session.missing.length := by
  have hle := length_missing_le hgrid
  have hcount := session.chunkCount.toNat_lt
  have hlength : (UInt32.ofNat session.missing.length).toNat = session.missing.length :=
    UInt32.toNat_ofNat_of_lt' (hle.trans_lt hcount)
  have hsub : UInt32.ofNat session.missing.length ≤ session.chunkCount := by
    rw [UInt32.le_iff_toNat_le, hlength]
    exact hle
  rw [saturatingSub32, if_pos hsub, UInt32.toNat_sub_of_le _ _ hsub, hlength]

/-- The bytes that the gateway holds from the start, where its chunks are the first ones. -/
theorem toNat_ackedBytes (hgrid : session.WellFormed)
    (hfits : session.chunkCount.toNat * session.chunkBytes.toNat < 2 ^ 64) :
    (ackedBytes session).toNat =
      min ((session.chunkCount.toNat - session.missing.length) * session.chunkBytes.toNat)
        session.totalBytes.toNat := by
  have hle : (session.chunkCount.toNat - session.missing.length) * session.chunkBytes.toNat ≤
      session.chunkCount.toNat * session.chunkBytes.toNat :=
    Nat.mul_le_mul_right _ (Nat.sub_le _ _)
  have hreceived := toNat_received hgrid
  rw [ackedBytes, toNat_chunkSpanBytes (by rw [hreceived]; omega), hreceived]

/-- The ticks of a run over missing chunks that are the last of the grid. -/
theorem countsHeld_of_missingLast (hgrid : session.WellFormed) (hlast : session.MissingLast)
    (hfits : session.chunkCount.toNat * session.chunkBytes.toNat < 2 ^ 64)
    {sent : List UInt32} {again : List UploadProgress} (hsent : sent <+: session.missing)
    (hagain : again ≠ [] → sent = session.missing)
    (htotal : ackedAfter session (ackedBytes session) session.missing = session.totalBytes →
      ∀ tick ∈ again, tick.bytesSent = session.totalBytes) :
    CountsHeld session (progressTicks session (ackedBytes session) sent ++ again) := by
  have hlength := length_missing_le hgrid
  obtain ⟨-, htallies, hafter⟩ := tallies_of_range hgrid hfits hlast (by omega)
    (toNat_ackedBytes hgrid hfits)
  have hfirst := (counted_progressTicks_iff hgrid).mpr htallies
  apply countsHeld_of_counted hgrid
  intro seen tick rest hsplit
  have hresent : ∀ mid, seen = progressTicks session (ackedBytes session) sent ++ mid →
      again = mid ++ tick :: rest → tick.bytesSent.toNat =
        heldBytes session ((seen ++ [tick]).map UploadProgress.chunkIndex) := by
    intro mid hseen hmid
    have hall : sent = session.missing := hagain (by simp [hmid])
    have htick := htotal hafter tick (by simp [hmid])
    rw [htick, eq_comm, heldBytes_eq_total_iff hgrid]
    intro i hi
    rw [hseen, List.append_assoc, List.map_append, map_chunkIndex_progressTicks, hall]
    exact List.mem_append_left _ hi
  rcases List.append_eq_append_iff.mp hsplit with ⟨mid, hseen, hmid⟩ | ⟨mid, hseen, hmid⟩
  · exact hresent mid hseen hmid
  · cases mid with
    | nil => exact hresent [] (by rw [hseen, List.append_nil, List.append_nil]) hmid.symm
    | cons first mid =>
        rw [List.cons_append, List.cons.injEq] at hmid
        obtain ⟨later, hmissing⟩ := hsent
        rw [← hmissing] at hfirst
        rw [progressTicks_append, hseen, ← hmid.1, List.append_assoc] at hfirst
        exact hfirst seen tick _ rfl

/-- Where the products wrap, no span reaches the total. -/
theorem toNat_chunkSpanBytes_of_wraps (hgrid : session.WellFormed)
    (hwraps : 2 ^ 64 ≤ session.chunkCount.toNat * session.chunkBytes.toNat) {i : UInt32}
    (hi : i.toNat ≤ session.chunkCount.toNat) :
    (chunkSpanBytes session i).toNat < session.totalBytes.toNat := by
  rcases Nat.lt_or_eq_of_le hi with hlt | heq
  · obtain ⟨hspan, hbelow⟩ := toNat_chunkSpanBytes_of_lt hgrid hlt
    rwa [hspan]
  · have hupper : session.chunkCount.toNat * session.chunkBytes.toNat <
        session.totalBytes.toNat + session.chunkBytes.toNat := by
      have hpos : 0 < session.chunkCount.toNat := by
        by_contra hzero
        rw [Nat.eq_zero_of_not_pos hzero, Nat.zero_mul] at hwraps
        omega
      have hbelow := mul_lt_total hgrid (Nat.sub_lt hpos Nat.one_pos)
      rw [Nat.sub_mul, Nat.one_mul] at hbelow
      omega
    have hchunk := session.chunkBytes.toNat_lt
    have htotal := session.totalBytes.toNat_lt
    rw [chunkSpanBytes, UInt64.toNat_min, UInt64.toNat_mul, UInt32.toNat_toUInt64, heq]
    have hmod : session.chunkCount.toNat * session.chunkBytes.toNat % 2 ^ 64 =
        session.chunkCount.toNat * session.chunkBytes.toNat - 2 ^ 64 := by
      rw [Nat.mod_eq_sub_mod hwraps, Nat.mod_eq_of_lt (by omega)]
    omega

/-- What the acknowledging gateway shows: the chunks tally, and the whole is acknowledged. -/
theorem tallies_of_progressCounts (hgrid : session.WellFormed) (h : ProgressCounts session) :
    Tallies session (ackedBytes session) session.missing ∧
      max (chunkSpanBytes session 1).toNat
        (ackedAfter session (ackedBytes session) session.missing).toNat =
          session.totalBytes.toNat := by
  obtain ⟨r, w', more, hrun, hticks⟩ := exec_ackingDrive hgrid
  have hcounts := (h _ _ _ _ _ _ _ _ _ _ _ hrun).2
  rw [hticks, List.append_assoc] at hcounts
  refine ⟨(counted_progressTicks_iff hgrid).mp ?_, ?_⟩
  · intro seen tick rest hsplit
    exact hcounts.counted seen tick _ (by rw [hsplit, List.append_assoc, List.cons_append])
  · have hlast := (hcounts.complete _ _ _ rfl).mpr ?_
    · rw [← hlast, UInt64.toNat_max]
      rfl
    · intro i hi
      rw [List.map_append, map_chunkIndex_progressTicks]
      exact List.mem_append_left _ hi

theorem missingLast_of_tallies (hgrid : session.WellFormed)
    (hfits : session.chunkCount.toNat * session.chunkBytes.toNat < 2 ^ 64)
    (h : Tallies session (ackedBytes session) session.missing) : session.MissingLast := by
  by_cases hnone : session.missing = []
  · rw [SessionGrid.MissingLast, hnone]
    rfl
  have hlength := length_missing_le hgrid
  have hsome := List.length_pos_iff.mpr hnone
  have hacked := toNat_ackedBytes hgrid hfits
  have hfirst : session.chunkCount.toNat - session.missing.length <
      session.chunkCount.toNat := by omega
  have hbelow := mul_lt_total hgrid hfirst
  rw [min_eq_left hbelow.le] at hacked
  have hlast : ∃ i ∈ session.missing, i.toNat + 1 = session.chunkCount.toNat := by
    by_contra hnot
    have hspan : ∀ i ∈ session.missing,
        (chunkSpanBytes session (saturatingSucc32 i)).toNat < session.totalBytes.toNat := by
      intro i hi
      have hlt := hgrid.ofGrid i hi
      have hne : i.toNat + 1 ≠ session.chunkCount.toNat := fun heq => hnot ⟨i, hi, heq⟩
      obtain ⟨hval, hbound⟩ := toNat_chunkSpanBytes_of_lt hgrid (i := saturatingSucc32 i) (by
        rw [toNat_saturatingSucc32 session hlt]
        omega)
      rwa [hval]
    have hafter := ackedAfter_lt (hacked.trans_lt hbelow) hspan
    rw [ackedAfter_of_tallies hnone h] at hafter
    exact lt_irrefl _ hafter
  apply range_of_tallies hgrid hfits hgrid.ofGrid hlast hacked ?_ h
  have hsizes := outstanding_of_last hgrid hgrid.nodup hgrid.ofGrid hlast
  have hle : session.missing.length * session.chunkBytes.toNat ≤
      session.chunkCount.toNat * session.chunkBytes.toNat := Nat.mul_le_mul_right _ hlength
  rw [Nat.sub_mul]
  omega

/-- **The ticks count what the gateway holds exactly when the missing chunks are the last ones of a
grid that fits a word, in their order.** -/
theorem progressCounts_iff (hgrid : session.WellFormed) :
    ProgressCounts session ↔ session.MissingLast ∧
      session.chunkCount.toNat * session.chunkBytes.toNat < 2 ^ 64 := by
  constructor
  · intro h
    obtain ⟨htallies, htotal⟩ := tallies_of_progressCounts hgrid h
    have hfits : session.chunkCount.toNat * session.chunkBytes.toNat < 2 ^ 64 := by
      by_contra hwraps
      have hwraps := Nat.le_of_not_lt hwraps
      have hpos : 1 ≤ session.chunkCount.toNat := by
        by_contra hzero
        rw [Nat.lt_one_iff.mp (Nat.lt_of_not_le hzero), Nat.zero_mul] at hwraps
        omega
      have hreceived := toNat_received hgrid
      have hafter := @ackedAfter_lt session (ackedBytes session) session.missing
        (toNat_chunkSpanBytes_of_wraps hgrid hwraps (by omega)) fun i hi =>
          toNat_chunkSpanBytes_of_wraps hgrid hwraps (by
            rw [toNat_saturatingSucc32 session (hgrid.ofGrid i hi)]
            exact hgrid.ofGrid i hi)
      have hone := toNat_chunkSpanBytes_of_wraps hgrid hwraps (i := 1) hpos
      omega
    exact ⟨missingLast_of_tallies hgrid hfits htallies, hfits⟩
  · intro h σ json bodies sha256 host config input fuel s r w' hrun
    obtain ⟨sent, again, hsent, hagain, htells, htotal⟩ := tells_driveSession hrun
    obtain ⟨log, hlog, hacks⟩ := htells.acknowledged
    rw [List.nil_append] at hlog
    rw [hlog, htells.told, List.nil_append]
    exact ⟨hacks, countsHeld_of_missingLast hgrid h.1 h.2 hsent hagain htotal⟩

end Runs

/-! ## Two grids -/

/-- The second of two chunks is missing. -/
def tailMissing : SessionGrid where
  sessionId := "s"
  chunkBytes := 100
  chunkCount := 2
  totalBytes := 150
  declaredSha256Hex := "aa"
  missing := [1]

/-- The first of the two is missing, and the gateway holds the short one. -/
def headMissing : SessionGrid := { tailMissing with missing := [0] }

theorem progressCounts_tailMissing : ProgressCounts tailMissing := by
  have hgrid : tailMissing.WellFormed := by
    refine ⟨by decide, rfl, by decide, ?_⟩
    intro i hi
    rw [List.mem_singleton.mp hi]
    decide
  exact (progressCounts_iff hgrid).mpr ⟨rfl, by decide⟩

/-- The tick of the first chunk reports 100 bytes, while all 150 are held. -/
theorem not_progressCounts_headMissing : ¬ ProgressCounts headMissing := by
  intro h
  have hgrid : headMissing.WellFormed := by
    refine ⟨by decide, rfl, by decide, ?_⟩
    intro i hi
    rw [List.mem_singleton.mp hi]
    decide
  obtain ⟨r, w', more, hrun, hticks⟩ := exec_ackingDrive hgrid
  have hcounts := (h _ _ _ _ _ _ _ _ _ _ _ hrun).2
  have hfirst := hcounts.counted [] _ _ hticks
  have htick : (max (chunkSpanBytes headMissing (saturatingSucc32 0))
      (ackedBytes headMissing)).toNat = 100 := by decide
  have hheld : heldBytes headMissing [0] = 150 := by decide
  exact absurd (htick.symm.trans (hfirst.trans hheld)) (by decide)

end Label309
