import Mathlib.Data.Nat.Notation
import Mathlib.Tactic.SplitIfs
import StreamStore.Text.Utf8

/-!
# Reading back encoded characters

Decoding undoes encoding: every character is read back from its own bytes,
whatever follows them, and from nothing else.  The size that the encoding gives a text is the one
that texts report of themselves, so a text that fits into a number of bytes
is kept whole.
-/

namespace StreamStore.Utf8

/-! ## Single bytes -/

theorem toNat_ofNat_of_lt {n : Nat} (h : n < 256) : (UInt8.ofNat n).toNat = n := by
  simp [UInt8.toNat_ofNat', Nat.mod_eq_of_lt h]

theorem toNat_lt_surrogates_or (c : Char) :
    c.toNat < 0xD800 ∨ 0xDFFF < c.toNat ∧ c.toNat < 0x110000 :=
  c.valid

/-- What a lead byte of a longer sequence asks for. -/
theorem follow?_ofNat {n : Nat} (hn : 0xC2 ≤ n) (hn' : n ≤ 0xF4) :
    follow? (UInt8.ofNat n) =
      if n ≤ 0xDF then some (0x80, 0xBF, 1)
      else if n = 0xE0 then some (0xA0, 0xBF, 2)
      else if n = 0xED then some (0x80, 0x9F, 2)
      else if n ≤ 0xEF then some (0x80, 0xBF, 2)
      else if n = 0xF0 then some (0x90, 0xBF, 3)
      else if n ≤ 0xF3 then some (0x80, 0xBF, 3)
      else some (0x80, 0x8F, 3) := by
  have hbyte : (UInt8.ofNat n).toNat = n := toNat_ofNat_of_lt (by omega)
  simp only [follow?, UInt8.le_iff_toNat_le, ← UInt8.toNat_inj, hbyte, UInt8.reduceToNat]
  split_ifs <;> first | rfl | omega

/-! ## Sequences of each length -/

theorem next_ascii {index n : Nat} {bytes : Bytes} (hn : n < 0x80) :
    next index (UInt8.ofNat n) bytes = .ok (Char.ofNat n, bytes) := by
  have hbyte : (UInt8.ofNat n).toNat = n := toNat_ofNat_of_lt (by omega)
  have hlt : UInt8.ofNat n < 0x80 := by
    rw [UInt8.lt_iff_toNat_lt, hbyte]
    exact hn
  rw [next, if_pos hlt, hbyte]

/-- A continuation byte within bounds is taken into the code point. -/
theorem continuation_ofNat
    {index got need point n : Nat} {lo hi : UInt8} {bytes : Bytes}
    (hn : n < 0x40) (hlo : lo.toNat ≤ 0x80 + n) (hhi : 0x80 + n ≤ hi.toNat) :
    continuation index got lo hi (need + 1) point
        (UInt8.ofNat (0x80 + n) :: bytes) =
      continuation index (got + 1) 0x80 0xBF need (0x40 * point + n) bytes := by
  have hbyte : (UInt8.ofNat (0x80 + n)).toNat = 0x80 + n :=
    toNat_ofNat_of_lt (by omega)
  have hlow : low (UInt8.ofNat (0x80 + n)) = n := by
    rw [low, hbyte]
    omega
  have hbounds : lo ≤ UInt8.ofNat (0x80 + n) ∧ UInt8.ofNat (0x80 + n) ≤ hi := by
    rw [UInt8.le_iff_toNat_le, UInt8.le_iff_toNat_le, hbyte]
    exact ⟨hlo, hhi⟩
  rw [continuation, if_pos hbounds, hlow]

theorem continuation_zero {index got point : Nat} {lo hi : UInt8} {bytes : Bytes} :
    continuation index got lo hi 0 point bytes = .ok (point, bytes) := by
  rw [continuation]

theorem next_of_follow
    {index n need : Nat} {lo hi : UInt8} {bytes : Bytes}
    (hn : 0x80 ≤ n) (hn' : n < 256)
    (hfollow : follow? (UInt8.ofNat n) = some (lo, hi, need)) :
    next index (UInt8.ofNat n) bytes =
      (continuation index 1 lo hi need
        (if need = 1 then n % 0x20 else if need = 2 then n % 0x10 else n % 0x08)
        bytes).map fun (point, rest) => (Char.ofNat point, rest) := by
  have hbyte : (UInt8.ofNat n).toNat = n := toNat_ofNat_of_lt hn'
  have hge : ¬UInt8.ofNat n < 0x80 := by
    rw [UInt8.lt_iff_toNat_lt, hbyte]
    exact Nat.not_lt.mpr hn
  rw [next, if_neg hge, hfollow]
  simp only [leadBits, hbyte]

theorem continuation_tail
    {index got need point n : Nat} {bytes : Bytes} (hn : n < 0x40) :
    continuation index got 0x80 0xBF (need + 1) point
        (UInt8.ofNat (0x80 + n) :: bytes) =
      continuation index (got + 1) 0x80 0xBF need (0x40 * point + n) bytes := by
  apply continuation_ofNat hn
  · simp only [UInt8.reduceToNat]
    omega
  · simp only [UInt8.reduceToNat]
    omega

theorem next_two {index n : Nat} {bytes : Bytes} (hn : 0x80 ≤ n) (hn' : n < 0x800) :
    next index (UInt8.ofNat (0xC0 + n / 0x40))
        (UInt8.ofNat (0x80 + n % 0x40) :: bytes) =
      .ok (Char.ofNat n, bytes) := by
  have hfollow := follow?_ofNat (n := 0xC0 + n / 0x40) (by omega) (by omega)
  rw [if_pos (by omega)] at hfollow
  have hpoint : 0x40 * ((0xC0 + n / 0x40) % 0x20) + n % 0x40 = n := by omega
  rw [next_of_follow (by omega) (by omega) hfollow, if_pos rfl,
    continuation_tail (by omega), continuation_zero, hpoint]
  rfl

theorem next_three
    {index n : Nat} {bytes : Bytes} (hn : 0x800 ≤ n) (hn' : n < 0x10000)
    (hsurrogate : n < 0xD800 ∨ 0xDFFF < n) :
    next index (UInt8.ofNat (0xE0 + n / 0x1000))
        (UInt8.ofNat (0x80 + n / 0x40 % 0x40) ::
          UInt8.ofNat (0x80 + n % 0x40) :: bytes) =
      .ok (Char.ofNat n, bytes) := by
  have hfollow := follow?_ofNat (n := 0xE0 + n / 0x1000) (by omega) (by omega)
  have hpoint : 0x40 * (0x40 * ((0xE0 + n / 0x1000) % 0x10) + n / 0x40 % 0x40) +
      n % 0x40 = n := by omega
  obtain ⟨lo, hi, hlead, hlo, hhi⟩ : ∃ lo hi : UInt8,
      follow? (UInt8.ofNat (0xE0 + n / 0x1000)) = some (lo, hi, 2) ∧
        lo.toNat ≤ 0x80 + n / 0x40 % 0x40 ∧ 0x80 + n / 0x40 % 0x40 ≤ hi.toNat := by
    rw [hfollow]
    split_ifs
    · omega
    · refine ⟨_, _, rfl, ?_, ?_⟩ <;> simp only [UInt8.reduceToNat] <;> omega
    · refine ⟨_, _, rfl, ?_, ?_⟩ <;> simp only [UInt8.reduceToNat] <;> omega
    · refine ⟨_, _, rfl, ?_, ?_⟩ <;> simp only [UInt8.reduceToNat] <;> omega
    · omega
    · omega
    · omega
  rw [next_of_follow (by omega) (by omega) hlead, if_neg (by decide), if_pos rfl,
    continuation_ofNat (by omega) hlo hhi, continuation_tail (by omega),
    continuation_zero, hpoint]
  rfl

theorem next_four
    {index n : Nat} {bytes : Bytes} (hn : 0x10000 ≤ n) (hn' : n < 0x110000) :
    next index (UInt8.ofNat (0xF0 + n / 0x40000))
        (UInt8.ofNat (0x80 + n / 0x1000 % 0x40) ::
          UInt8.ofNat (0x80 + n / 0x40 % 0x40) ::
          UInt8.ofNat (0x80 + n % 0x40) :: bytes) =
      .ok (Char.ofNat n, bytes) := by
  have hfollow := follow?_ofNat (n := 0xF0 + n / 0x40000) (by omega) (by omega)
  have hpoint : 0x40 * (0x40 * (0x40 * ((0xF0 + n / 0x40000) % 0x08) +
      n / 0x1000 % 0x40) + n / 0x40 % 0x40) + n % 0x40 = n := by omega
  obtain ⟨lo, hi, hlead, hlo, hhi⟩ : ∃ lo hi : UInt8,
      follow? (UInt8.ofNat (0xF0 + n / 0x40000)) = some (lo, hi, 3) ∧
        lo.toNat ≤ 0x80 + n / 0x1000 % 0x40 ∧ 0x80 + n / 0x1000 % 0x40 ≤ hi.toNat := by
    rw [hfollow]
    split_ifs
    · omega
    · omega
    · omega
    · omega
    · refine ⟨_, _, rfl, ?_, ?_⟩ <;> simp only [UInt8.reduceToNat] <;> omega
    · refine ⟨_, _, rfl, ?_, ?_⟩ <;> simp only [UInt8.reduceToNat] <;> omega
    · refine ⟨_, _, rfl, ?_, ?_⟩ <;> simp only [UInt8.reduceToNat] <;> omega
  rw [next_of_follow (by omega) (by omega) hlead, if_neg (by decide),
    if_neg (by decide), continuation_ofNat (by omega) hlo hhi,
    continuation_tail (by omega), continuation_tail (by omega),
    continuation_zero, hpoint]
  rfl

/-! ## Whole characters and texts -/

/-- The first character read from its own bytes is the character itself. -/
theorem next_encodeChar (index : Nat) (c : Char) (bytes : Bytes) :
    ∃ lead tail, encodeChar c = lead :: tail ∧
      next index lead (tail ++ bytes) = .ok (c, bytes) := by
  have hvalid := toNat_lt_surrogates_or c
  have hback : Char.ofNat c.toNat = c := Char.ofNat_toNat c
  simp only [encodeChar]
  split_ifs with h1 h2 h3
  · refine ⟨_, _, rfl, ?_⟩
    rw [List.nil_append, next_ascii h1, hback]
  · refine ⟨_, _, rfl, ?_⟩
    rw [List.cons_append, List.nil_append, next_two (by omega) h2, hback]
  · refine ⟨_, _, rfl, ?_⟩
    rw [List.cons_append, List.cons_append, List.nil_append,
      next_three (by omega) h3 (by omega), hback]
  · refine ⟨_, _, rfl, ?_⟩
    rw [List.cons_append, List.cons_append, List.cons_append, List.nil_append,
      next_four (by omega) (by omega), hback]

theorem decodeFrom_encode (index : Nat) (cs : List Char) :
    decodeFrom index (encode cs) = .ok cs := by
  induction cs generalizing index with
  | nil =>
      rw [encode, List.flatMap_nil, decodeFrom]
  | cons c cs ih =>
      obtain ⟨lead, tail, hbytes, hnext⟩ := next_encodeChar index c (encode cs)
      have hencode : encode (c :: cs) = lead :: (tail ++ encode cs) := by
        rw [encode, List.flatMap_cons, hbytes, List.cons_append, ← encode]
      rw [hencode, decodeFrom]
      split
      next fault h =>
        rw [hnext] at h
        cases h
      next c' rest h =>
        rw [hnext] at h
        cases h
        rw [ih]
        rfl

/-- Decoding undoes encoding. -/
theorem decode_encode (cs : List Char) : decode (encode cs) = .ok cs :=
  decodeFrom_encode 0 cs

theorem width_eq_utf8Size (c : Char) : width c = c.utf8Size := by
  have hval : ∀ n : UInt32, c.val ≤ n ↔ c.toNat ≤ n.toNat :=
    fun n => UInt32.le_iff_toNat_le
  simp only [width, Char.utf8Size, hval, UInt32.toNat_ofNatLT]
  split_ifs <;> first | rfl | omega

theorem utf8ByteSize_ofList (cs : List Char) :
    (String.ofList cs).utf8ByteSize = (encode cs).length := by
  induction cs with
  | nil => rfl
  | cons c cs ih =>
      rw [String.ofList_cons, String.utf8ByteSize_append,
        String.utf8ByteSize_singleton, ih, length_encode_cons, width_eq_utf8Size]

theorem length_encode_toList (s : String) :
    (encode s.toList).length = s.utf8ByteSize := by
  rw [← utf8ByteSize_ofList, String.ofList_toList]

/-! ## What fits -/

/-- The longest leading part of a text whose bytes fit into a number of bytes. -/
def fitting : Nat → List Char → List Char
  | _, [] => []
  | room, c :: cs => if width c ≤ room then c :: fitting (room - width c) cs else []

theorem length_encode_fitting (room : Nat) (cs : List Char) :
    (encode (fitting room cs)).length ≤ room := by
  induction cs generalizing room with
  | nil => simp [fitting, encode]
  | cons c cs ih =>
    unfold fitting
    split
    · rename_i h
      have hrest := ih (room - width c)
      rw [length_encode_cons]
      omega
    · simp [encode]

theorem fitting_prefix (room : Nat) (cs : List Char) : fitting room cs <+: cs := by
  induction cs generalizing room with
  | nil => exact List.nil_prefix
  | cons c cs ih =>
    unfold fitting
    split
    · exact List.cons_prefix_cons.2 ⟨rfl, ih _⟩
    · exact List.nil_prefix

/-- What fits as a whole is kept as a whole. -/
theorem fitting_of_length_le {room : Nat} {cs : List Char}
    (h : (encode cs).length ≤ room) : fitting room cs = cs := by
  induction cs generalizing room with
  | nil => rfl
  | cons c cs ih =>
      rw [length_encode_cons] at h
      rw [fitting, if_pos (by omega), ih (by omega)]

/-- No longer leading part would fit. -/
theorem prefix_fitting {room : Nat} {cs longer : List Char} (hfirst : longer <+: cs)
    (hroom : (encode longer).length ≤ room) : longer <+: fitting room cs := by
  induction cs generalizing room longer with
  | nil => exact hfirst
  | cons c cs ih =>
      cases longer with
      | nil => exact List.nil_prefix
      | cons c' longer =>
          obtain ⟨rfl, hrest⟩ := List.cons_prefix_cons.mp hfirst
          rw [length_encode_cons] at hroom
          rw [fitting, if_pos (by omega)]
          exact List.cons_prefix_cons.mpr ⟨rfl, ih hrest (by omega)⟩

/-! ## Reading nothing but characters -/

theorem ofNat_of_toNat_eq {b : UInt8} {n : Nat} (h : n = b.toNat) : UInt8.ofNat n = b := by
  rw [h, UInt8.ofNat_toNat]

theorem toNat_ofNat_of_valid {n : Nat} (h : n < 0xD800 ∨ 0xDFFF < n ∧ n < 0x110000) :
    (Char.ofNat n).toNat = n := by
  have hvalid : n.isValidChar := h
  rw [Char.ofNat, dif_pos hvalid]
  rfl

/-- A continuation byte that is read is within its bounds. -/
theorem exists_of_continuation_succ {index got need point : Nat} {lo hi : UInt8} {bytes : Bytes}
    {found : Nat × Bytes} (h : continuation index got lo hi (need + 1) point bytes = .ok found) :
    ∃ b tail, bytes = b :: tail ∧ lo.toNat ≤ b.toNat ∧ b.toNat ≤ hi.toNat ∧
      continuation index (got + 1) 0x80 0xBF need (0x40 * point + b.toNat % 0x40) tail =
        .ok found := by
  cases bytes with
  | nil => cases h
  | cons b tail =>
      rw [continuation] at h
      split at h
      next hbounds =>
        exact ⟨b, tail, rfl, UInt8.le_iff_toNat_le.mp hbounds.1,
          UInt8.le_iff_toNat_le.mp hbounds.2, h⟩
      · cases h

/-- What a lead byte of a longer sequence is, and what it asks of the next byte. -/
theorem follow?_eq_some {lead lo hi : UInt8} {need : Nat} (h : follow? lead = some (lo, hi, need)) :
    0x80 ≤ lo.toNat ∧ hi.toNat ≤ 0xBF ∧
      (need = 1 ∧ 0xC2 ≤ lead.toNat ∧ lead.toNat ≤ 0xDF ∨
        need = 2 ∧ 0xE0 ≤ lead.toNat ∧ lead.toNat ≤ 0xEF ∧
          (lead.toNat ≠ 0xE0 ∨ 0xA0 ≤ lo.toNat) ∧ (lead.toNat ≠ 0xED ∨ hi.toNat ≤ 0x9F) ∨
        need = 3 ∧ 0xF0 ≤ lead.toNat ∧ lead.toNat ≤ 0xF4 ∧
          (lead.toNat ≠ 0xF0 ∨ 0x90 ≤ lo.toNat) ∧ (lead.toNat ≠ 0xF4 ∨ hi.toNat ≤ 0x8F)) := by
  simp only [follow?, UInt8.le_iff_toNat_le, ← UInt8.toNat_inj, UInt8.reduceToNat] at h
  split_ifs at h <;> cases h <;> simp <;> omega

theorem encodeChar_two {lead b : UInt8} (hlead : 0xC2 ≤ lead.toNat ∧ lead.toNat ≤ 0xDF)
    (hb : 0x80 ≤ b.toNat ∧ b.toNat ≤ 0xBF) :
    encodeChar (Char.ofNat (0x40 * (lead.toNat % 0x20) + b.toNat % 0x40)) = [lead, b] := by
  generalize hn : 0x40 * (lead.toNat % 0x20) + b.toNat % 0x40 = n
  have hc : (Char.ofNat n).toNat = n := toNat_ofNat_of_valid (by omega)
  have hfirst : UInt8.ofNat (0xC0 + n / 0x40) = lead := ofNat_of_toNat_eq (by omega)
  have hsecond : UInt8.ofNat (0x80 + n % 0x40) = b := ofNat_of_toNat_eq (by omega)
  simp only [encodeChar, hc]
  rw [if_neg (by omega), if_pos (by omega), hfirst, hsecond]

theorem encodeChar_three {lead b₁ b₂ : UInt8} (hlead : 0xE0 ≤ lead.toNat ∧ lead.toNat ≤ 0xEF)
    (hb₁ : 0x80 ≤ b₁.toNat ∧ b₁.toNat ≤ 0xBF) (hb₂ : 0x80 ≤ b₂.toNat ∧ b₂.toNat ≤ 0xBF)
    (hlow : lead.toNat ≠ 0xE0 ∨ 0xA0 ≤ b₁.toNat) (hhigh : lead.toNat ≠ 0xED ∨ b₁.toNat ≤ 0x9F) :
    encodeChar (Char.ofNat (0x40 * (0x40 * (lead.toNat % 0x10) + b₁.toNat % 0x40) +
      b₂.toNat % 0x40)) = [lead, b₁, b₂] := by
  generalize hn : 0x40 * (0x40 * (lead.toNat % 0x10) + b₁.toNat % 0x40) + b₂.toNat % 0x40 = n
  have hc : (Char.ofNat n).toNat = n := toNat_ofNat_of_valid (by omega)
  have hfirst : UInt8.ofNat (0xE0 + n / 0x1000) = lead := ofNat_of_toNat_eq (by omega)
  have hsecond : UInt8.ofNat (0x80 + n / 0x40 % 0x40) = b₁ := ofNat_of_toNat_eq (by omega)
  have hthird : UInt8.ofNat (0x80 + n % 0x40) = b₂ := ofNat_of_toNat_eq (by omega)
  simp only [encodeChar, hc]
  rw [if_neg (by omega), if_neg (by omega), if_pos (by omega), hfirst, hsecond, hthird]

theorem encodeChar_four {lead b₁ b₂ b₃ : UInt8} (hlead : 0xF0 ≤ lead.toNat ∧ lead.toNat ≤ 0xF4)
    (hb₁ : 0x80 ≤ b₁.toNat ∧ b₁.toNat ≤ 0xBF) (hb₂ : 0x80 ≤ b₂.toNat ∧ b₂.toNat ≤ 0xBF)
    (hb₃ : 0x80 ≤ b₃.toNat ∧ b₃.toNat ≤ 0xBF)
    (hlow : lead.toNat ≠ 0xF0 ∨ 0x90 ≤ b₁.toNat) (hhigh : lead.toNat ≠ 0xF4 ∨ b₁.toNat ≤ 0x8F) :
    encodeChar (Char.ofNat (0x40 * (0x40 * (0x40 * (lead.toNat % 0x08) + b₁.toNat % 0x40) +
      b₂.toNat % 0x40) + b₃.toNat % 0x40)) = [lead, b₁, b₂, b₃] := by
  generalize hn : 0x40 * (0x40 * (0x40 * (lead.toNat % 0x08) + b₁.toNat % 0x40) +
    b₂.toNat % 0x40) + b₃.toNat % 0x40 = n
  have hc : (Char.ofNat n).toNat = n := toNat_ofNat_of_valid (by omega)
  have hfirst : UInt8.ofNat (0xF0 + n / 0x40000) = lead := ofNat_of_toNat_eq (by omega)
  have hsecond : UInt8.ofNat (0x80 + n / 0x1000 % 0x40) = b₁ := ofNat_of_toNat_eq (by omega)
  have hthird : UInt8.ofNat (0x80 + n / 0x40 % 0x40) = b₂ := ofNat_of_toNat_eq (by omega)
  have hfourth : UInt8.ofNat (0x80 + n % 0x40) = b₃ := ofNat_of_toNat_eq (by omega)
  simp only [encodeChar, hc]
  rw [if_neg (by omega), if_neg (by omega), if_neg (by omega), hfirst, hsecond, hthird, hfourth]

theorem exists_of_next_of_follow {index need : Nat} {lead lo hi : UInt8} {bytes rest : Bytes}
    {c : Char} (hge : ¬lead < 0x80) (hfollow : follow? lead = some (lo, hi, need))
    (h : next index lead bytes = .ok (c, rest)) :
    ∃ point, c = Char.ofNat point ∧
      continuation index 1 lo hi need (leadBits lead need) bytes = .ok (point, rest) := by
  simp only [next, if_neg hge, hfollow] at h
  cases hfound : continuation index 1 lo hi need (leadBits lead need) bytes with
  | error fault =>
      rw [hfound] at h
      cases h
  | ok found =>
      rw [hfound] at h
      cases h
      exact ⟨found.1, rfl, rfl⟩

/-- A character is read from nothing but its own bytes. -/
theorem encodeChar_of_next {index : Nat} {lead : UInt8} {bytes rest : Bytes} {c : Char}
    (h : next index lead bytes = .ok (c, rest)) : encodeChar c ++ rest = lead :: bytes := by
  by_cases hascii : lead < 0x80
  · rw [next, if_pos hascii] at h
    cases h
    simp only [UInt8.lt_iff_toNat_lt, UInt8.reduceToNat] at hascii
    have hc : (Char.ofNat lead.toNat).toNat = lead.toNat := toNat_ofNat_of_valid (by omega)
    simp only [encodeChar, hc, if_pos hascii, UInt8.ofNat_toNat, List.singleton_append]
  · cases hfollow : follow? lead with
    | none =>
        simp only [next, if_neg hascii, hfollow] at h
        cases h
    | some found =>
        obtain ⟨lo, hi, need⟩ := found
        obtain ⟨point, rfl, hcont⟩ := exists_of_next_of_follow hascii hfollow h
        obtain ⟨hlo, hhi, ⟨rfl, hlead⟩ | ⟨rfl, hlead, hlead', hlow, hhigh⟩ |
          ⟨rfl, hlead, hlead', hlow, hhigh⟩⟩ := follow?_eq_some hfollow
        · obtain ⟨b, tail, rfl, hb, hb', hcont⟩ := exists_of_continuation_succ hcont
          rw [continuation_zero] at hcont
          cases hcont
          exact congrArg (· ++ rest) (encodeChar_two hlead ⟨by omega, by omega⟩)
        · obtain ⟨b₁, tail, rfl, hb₁, hb₁', hcont⟩ := exists_of_continuation_succ hcont
          obtain ⟨b₂, tail, rfl, hb₂, hb₂', hcont⟩ := exists_of_continuation_succ hcont
          rw [continuation_zero] at hcont
          cases hcont
          exact congrArg (· ++ rest) (encodeChar_three ⟨hlead, hlead'⟩ ⟨by omega, by omega⟩
            ⟨hb₂, hb₂'⟩ (by omega) (by omega))
        · obtain ⟨b₁, tail, rfl, hb₁, hb₁', hcont⟩ := exists_of_continuation_succ hcont
          obtain ⟨b₂, tail, rfl, hb₂, hb₂', hcont⟩ := exists_of_continuation_succ hcont
          obtain ⟨b₃, tail, rfl, hb₃, hb₃', hcont⟩ := exists_of_continuation_succ hcont
          rw [continuation_zero] at hcont
          cases hcont
          exact congrArg (· ++ rest) (encodeChar_four ⟨hlead, hlead'⟩ ⟨by omega, by omega⟩
            ⟨hb₂, hb₂'⟩ ⟨hb₃, hb₃'⟩ (by omega) (by omega))

theorem encode_of_decodeFrom {index : Nat} {bytes : Bytes} {cs : List Char}
    (h : decodeFrom index bytes = .ok cs) : encode cs = bytes := by
  induction index, bytes using decodeFrom.induct generalizing cs with
  | case1 index =>
      rw [decodeFrom] at h
      cases h
      rfl
  | case2 index lead bytes fault hnext =>
      rw [decodeFrom] at h
      split at h
      · cases h
      next hnext' => cases hnext.symm.trans hnext'
  | case3 index lead bytes c rest hnext hlength ih =>
      rw [decodeFrom] at h
      split at h
      · cases h
      next c' rest' hnext' =>
        cases hnext.symm.trans hnext'
        cases hrest : decodeFrom (index + (bytes.length + 1 - rest.length)) rest with
        | error fault =>
            rw [hrest] at h
            cases h
        | ok cs =>
            rw [hrest] at h
            cases h
            rw [encode, List.flatMap_cons, ← encode, ih hrest, encodeChar_of_next hnext]

/-- Bytes are read as a text just if they are the bytes of the text. -/
theorem decode_eq_ok_iff {bytes : Bytes} {cs : List Char} :
    decode bytes = .ok cs ↔ encode cs = bytes := by
  constructor
  · exact encode_of_decodeFrom
  · rintro rfl
    exact decode_encode cs

end StreamStore.Utf8
