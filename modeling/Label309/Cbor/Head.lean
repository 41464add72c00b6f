import Label309.Cbor.Decode

/-!
# Item heads

The header byte splits into its major type and additional information, and the
shortest head written for an argument is exactly what the strict reader takes.
-/
namespace Label309
open BigEndian ByteReader

/-! ## The header byte -/

theorem toNat_major (b : UInt8) : (b >>> 5).toNat = b.toNat / 32 := by
  simp [UInt8.toNat_shiftRight, Nat.shiftRight_eq_div_pow]

theorem toNat_additional (b : UInt8) : (b &&& 0x1F).toNat = b.toNat % 32 := by
  simpa using Nat.and_two_pow_sub_one_eq_mod b.toNat 5

theorem toNat_writeHeader {major additional : UInt8} (hm : major < 8) (ha : additional < 32) :
    (writeHeader major additional).toNat = major.toNat * 32 + additional.toNat := by
  have hm' : major.toNat < 8 := hm
  have ha' : additional.toNat < 32 := ha
  have hor := Nat.shiftLeft_add_eq_or_of_lt (i := 5) ha' major.toNat
  simp only [Nat.shiftLeft_eq, Nat.reducePow] at hor
  simp only [writeHeader, UInt8.toNat_or, UInt8.toNat_shiftLeft, UInt8.reduceToNat,
    Nat.shiftLeft_eq, Nat.reduceMod, Nat.reducePow]
  rw [Nat.mod_eq_of_lt (by omega), hor]

theorem writeHeader_split (b : UInt8) : writeHeader (b >>> 5) (b &&& 0x1F) = b := by
  have hb := b.toNat_lt
  have hmajor := toNat_major b
  have hadditional := toNat_additional b
  apply UInt8.toNat_inj.mp
  rw [toNat_writeHeader]
  · omega
  · rw [UInt8.lt_iff_toNat_lt, hmajor]
    simp only [UInt8.reduceToNat]
    omega
  · rw [UInt8.lt_iff_toNat_lt, hadditional]
    simp only [UInt8.reduceToNat]
    omega

theorem writeHeader_major {major additional : UInt8} (hm : major < 8) (ha : additional < 32) :
    writeHeader major additional >>> 5 = major := by
  have ha' : additional.toNat < 32 := ha
  apply UInt8.toNat_inj.mp
  rw [toNat_major, toNat_writeHeader hm ha]
  omega

theorem writeHeader_additional {major additional : UInt8} (hm : major < 8)
    (ha : additional < 32) : writeHeader major additional &&& 0x1F = additional := by
  have ha' : additional.toNat < 32 := ha
  apply UInt8.toNat_inj.mp
  rw [toNat_additional, toNat_writeHeader hm ha]
  omega

/-! ## Raw bytes -/

theorem accepts_take (bs : List UInt8) : Accepts (take bs.length) bs bs := by
  intro data pos h
  simp [take, h.le_length, h.take_drop, Except.map]

theorem sound_take (len : ℕ) : Sound (take len) fun raw bs => raw = bs ∧ raw.length = len := by
  intro data pos raw pos' h
  unfold take at h
  split at h
  · rename_i hle
    cases h
    refine ⟨(data.drop pos).take len, ?_, ?_, rfl, ?_⟩
    · rw [← List.drop_drop, List.take_append_drop]
    · simp only [List.length_take, List.length_drop]
      omega
    · simp only [List.length_take, List.length_drop]
      omega
  · split at h <;> cases h

/-! ## Arguments -/

/-- The additional information and trailing bytes of the shortest argument. -/
def shortestArgument (n : UInt64) : UInt8 × List UInt8 :=
  if n ≤ 23 then (n.toUInt8, [])
  else if n ≤ 0xFF then (24, toBe 1 n.toNat)
  else if n ≤ 0xFFFF then (25, toBe 2 n.toNat)
  else if n ≤ 0xFFFFFFFF then (26, toBe 4 n.toNat)
  else (27, toBe 8 n.toNat)

theorem writeTypeAndArgument_eq (major : UInt8) (n : UInt64) :
    writeTypeAndArgument major n =
      writeHeader major (shortestArgument n).1 :: (shortestArgument n).2 := by
  unfold writeTypeAndArgument shortestArgument
  split_ifs <;> rfl

theorem shortestArgument_lt (n : UInt64) : (shortestArgument n).1 < 32 := by
  unfold shortestArgument
  split_ifs with h
  · have hn : n.toNat ≤ 23 := h
    simp [UInt8.lt_iff_toNat_lt]
    omega
  all_goals simp [UInt8.lt_iff_toNat_lt]

/-- A number read from at most eight bytes is carried whole by a 64-bit word. -/
theorem toNat_ofNat_ofBe {raw : List UInt8} (h : raw.length ≤ 8) :
    (UInt64.ofNat (ofBe raw)).toNat = ofBe raw := by
  have hlt := ofBe_lt raw
  have hpow : (256 : ℕ) ^ raw.length ≤ 256 ^ 8 := Nat.pow_le_pow_right (by decide) h
  rw [UInt64.toNat_ofNat', Nat.mod_eq_of_lt]
  omega

theorem toBe_ofNat_ofBe {raw : List UInt8} {w : ℕ} (hw : raw.length = w) (h : w ≤ 8) :
    toBe w (UInt64.ofNat (ofBe raw)).toNat = raw := by
  subst hw
  rw [toNat_ofNat_ofBe h, toBe_ofBe]

theorem accepts_readArgument (n : UInt64) :
    Accepts (readArgument (shortestArgument n).1) (shortestArgument n).2 n := by
  have hn := n.toNat_lt
  have hread (w : ℕ) (hw : n.toNat < 256 ^ w) :
      Accepts (take w) (toBe w n.toNat) (toBe w n.toNat) ∧
        UInt64.ofNat (ofBe (toBe w n.toNat)) = n := by
    refine ⟨?_, by rw [ofBe_toBe hw, UInt64.ofNat_toNat]⟩
    simpa using accepts_take (toBe w n.toNat)
  unfold shortestArgument
  split_ifs with h23 h8 h16 h32
  · have hle : n.toNat ≤ 23 := h23
    have hsmall : n.toUInt8 ≤ 23 := by
      simp only [UInt8.le_iff_toNat_le, UInt64.toNat_toUInt8, UInt8.reduceToNat]
      omega
    have hval : n.toUInt8.toUInt64 = n := by
      apply UInt64.toNat_inj.mp
      simp only [UInt8.toNat_toUInt64, UInt64.toNat_toUInt8]
      omega
    simp only [readArgument, hsmall, if_true, hval]
    exact Accepts.pure n
  · have hle : n.toNat ≤ 255 := h8
    have hgt : ¬ n.toNat ≤ 23 := h23
    have hbig : ¬ n.toUInt8 ≤ 23 := by
      simp only [UInt8.le_iff_toNat_le, UInt64.toNat_toUInt8, UInt8.reduceToNat]
      omega
    have hval : n.toUInt8.toUInt64 = n := by
      apply UInt64.toNat_inj.mp
      simp only [UInt8.toNat_toUInt64, UInt64.toNat_toUInt8]
      omega
    have hbyte : toBe 1 n.toNat = [n.toUInt8] := by
      simp only [toBe, pow_zero, Nat.div_one]
      rfl
    rw [hbyte]
    refine (Accepts.byte _ n.toUInt8).bind_pure ?_
    simp only [hbig, if_false, hval]
    exact Accepts.pure n
  · obtain ⟨htake, hval⟩ := hread 2 (Nat.lt_succ_of_le h16)
    refine htake.bind_pure ?_
    simp only [hval, h8, if_false]
    exact Accepts.pure n
  · obtain ⟨htake, hval⟩ := hread 4 (Nat.lt_succ_of_le h32)
    refine htake.bind_pure ?_
    simp only [hval, h16, if_false]
    exact Accepts.pure n
  · obtain ⟨htake, hval⟩ := hread 8 n.toNat_lt
    refine htake.bind_pure ?_
    simp only [hval, h32, if_false]
    exact Accepts.pure n

/-- A wide argument passes only above the bound of the next narrower form. -/
private theorem sound_wideArgument {w : ℕ} (hw : w ≤ 8) (bound : UInt64) (message : String) :
    Sound (do
      let raw ← take w
      if UInt64.ofNat (ofBe raw) ≤ bound then malformed message
      else pure (UInt64.ofNat (ofBe raw)))
      fun n bs => ¬ n ≤ bound ∧ n.toNat < 256 ^ w ∧ toBe w n.toNat = bs := by
  refine (sound_take w).bind ?_
  rintro raw _ ⟨rfl, hlen⟩
  split_ifs with hle
  · exact Sound.fail _
  · refine (Sound.pure _).mono ?_
    rintro _ _ ⟨rfl, rfl⟩
    refine ⟨hle, ?_, by simpa using toBe_ofNat_ofBe hlen hw⟩
    rw [toNat_ofNat_ofBe (hlen ▸ hw), ← hlen]
    exact ofBe_lt raw

/-- A head is read back off anything that starts with it. -/
theorem head_append_inj {major : UInt8} (hm : major < 8) {n m : UInt64} {as bs : List UInt8}
    (h : writeTypeAndArgument major n ++ as = writeTypeAndArgument major m ++ bs) :
    n = m ∧ as = bs := by
  simp only [writeTypeAndArgument_eq, List.cons_append, List.cons.injEq] at h
  obtain ⟨hheader, hrest⟩ := h
  have hadditional : (shortestArgument n).1 = (shortestArgument m).1 := by
    rw [← writeHeader_additional hm (shortestArgument_lt n), hheader,
      writeHeader_additional hm (shortestArgument_lt m)]
  have hread := accepts_readArgument n
  rw [hadditional] at hread
  obtain ⟨hvalue, -, htail⟩ := hread.append_inj (accepts_readArgument m) hrest
  exact ⟨hvalue, htail⟩

/-- The strict reader takes an argument only in its shortest form. -/
theorem sound_readArgument (additional : UInt8) :
    Sound (readArgument additional) fun n bs => shortestArgument n = (additional, bs) := by
  unfold readArgument
  split_ifs with h23 h24 h25 h26 h27 h31
  · refine (Sound.pure _).mono ?_
    rintro _ _ ⟨rfl, rfl⟩
    have hle : additional.toUInt64 ≤ 23 := by
      simpa [UInt64.le_iff_toNat_le, UInt8.le_iff_toNat_le] using h23
    simp [shortestArgument, hle]
  · subst h24
    refine (Sound.byte _).bind ?_
    rintro v _ rfl
    split_ifs with hle
    · exact Sound.fail _
    · refine (Sound.pure _).mono ?_
      rintro _ _ ⟨rfl, rfl⟩
      have hv := v.toNat_lt
      have h23' : ¬ v.toUInt64 ≤ 23 := by
        simpa [UInt64.le_iff_toNat_le, UInt8.le_iff_toNat_le] using hle
      have h8 : v.toUInt64 ≤ 0xFF := by
        simp only [UInt64.le_iff_toNat_le, UInt8.toNat_toUInt64, UInt64.reduceToNat]
        omega
      have hbyte : toBe 1 v.toNat = [v] := by simpa [ofBe] using toBe_ofBe [v]
      simp [shortestArgument, h23', h8, hbyte]
  · subst h25
    refine (sound_wideArgument (by decide) 0xFF _).mono ?_
    rintro n _ ⟨hgt, hlt, rfl⟩
    have hgt' : ¬ n.toNat ≤ 255 := hgt
    have h23 : ¬ n ≤ 23 := fun h => hgt' (le_trans h (by decide))
    have h16 : n ≤ 0xFFFF := Nat.le_of_lt_succ hlt
    simp [shortestArgument, h23, hgt, h16]
  · subst h26
    refine (sound_wideArgument (by decide) 0xFFFF _).mono ?_
    rintro n _ ⟨hgt, hlt, rfl⟩
    have hgt' : ¬ n.toNat ≤ 65535 := hgt
    have h23 : ¬ n ≤ 23 := fun h => hgt' (le_trans h (by decide))
    have h8 : ¬ n ≤ 0xFF := fun h => hgt' (le_trans h (by decide))
    have h32 : n ≤ 0xFFFFFFFF := Nat.le_of_lt_succ hlt
    simp [shortestArgument, h23, h8, hgt, h32]
  · subst h27
    refine (sound_wideArgument (by decide) 0xFFFFFFFF _).mono ?_
    rintro n _ ⟨hgt, hlt, rfl⟩
    have hgt' : ¬ n.toNat ≤ 4294967295 := hgt
    have h23 : ¬ n ≤ 23 := fun h => hgt' (le_trans h (by decide))
    have h8 : ¬ n ≤ 0xFF := fun h => hgt' (le_trans h (by decide))
    have h16 : ¬ n ≤ 0xFFFF := fun h => hgt' (le_trans h (by decide))
    simp [shortestArgument, h23, h8, h16, hgt]
  · exact Sound.fail _
  · exact Sound.fail _

end Label309
