import StreamStore.Proofs.Text.Utf8

/-!
# Cutting encoded texts

Of the bytes of a character the first alone is no continuation, so the byte at an index tells
whether a character begins there.  The bytes of a text may be cut just where they are the bytes of
a leading part of it, and going back from a limit to such a place finds the end of the longest
leading part that fits.
-/

namespace StreamStore.Utf8

/-! ## The encoding of texts -/

/-- The bytes of a character are those that the standard library gives. -/
theorem encodeChar_eq (c : Char) : encodeChar c = String.utf8EncodeChar c := by
  have hvalid := toNat_lt_surrogates_or c
  have hval : c.val.toNat = c.toNat := rfl
  have hone : c.toNat ≤ 0x7f ↔ c.toNat < 0x80 := Nat.lt_succ_iff.symm
  have htwo : c.toNat ≤ 0x7ff ↔ c.toNat < 0x800 := Nat.lt_succ_iff.symm
  have hthree : c.toNat ≤ 0xffff ↔ c.toNat < 0x10000 := Nat.lt_succ_iff.symm
  simp only [encodeChar, String.utf8EncodeChar, hval, hone, htwo, hthree, Nat.add_comm 0x80]
  split_ifs
  · rfl
  · have hlead : 0xC0 + c.toNat / 0x40 = c.toNat / 0x40 % 0x20 + 0xC0 := by omega
    rw [hlead]
  · have hlead : 0xE0 + c.toNat / 0x1000 = c.toNat / 0x1000 % 0x10 + 0xE0 := by omega
    rw [hlead]
  · have hlead : 0xF0 + c.toNat / 0x40000 = c.toNat / 0x40000 % 0x08 + 0xF0 := by omega
    rw [hlead]

theorem encode_append (cs ds : List Char) : encode (cs ++ ds) = encode cs ++ encode ds := by
  simp only [encode, List.flatMap_append]

/-- The bytes of a text are those that the standard library keeps it as. -/
theorem encode_toList (s : String) : encode s.toList = s.toUTF8.data.toList := by
  have hchar : encodeChar = String.utf8EncodeChar := funext encodeChar_eq
  rw [encode, hchar, String.toUTF8_eq_toByteArray, ← String.utf8Encode_toList, List.utf8Encode,
    List.toList_data_toByteArray]

theorem encode_prefix_encode {cs ds : List Char} (h : cs <+: ds) : encode cs <+: encode ds := by
  obtain ⟨rest, rfl⟩ := h
  rw [encode_append]
  exact List.prefix_append _ _

/-! ## Where a character begins -/

theorem isContinuation_ofNat {n : Nat} (hn : n < 256) :
    isContinuation (UInt8.ofNat n) = true ↔ 0x80 ≤ n ∧ n < 0xC0 := by
  have hbyte : (UInt8.ofNat n).toNat = n := toNat_ofNat_of_lt hn
  simp only [isContinuation, Bool.and_eq_true, decide_eq_true_eq, UInt8.le_iff_toNat_le,
    UInt8.lt_iff_toNat_lt, hbyte, UInt8.reduceToNat]

theorem isContinuation_lead {n : Nat} (hn : n < 256) (hlead : n < 0x80 ∨ 0xC0 ≤ n) :
    isContinuation (UInt8.ofNat n) = false := by
  rw [← Bool.not_eq_true, isContinuation_ofNat hn]
  omega

theorem isContinuation_tail (n : Nat) :
    isContinuation (UInt8.ofNat (0x80 + n % 0x40)) = true := by
  rw [isContinuation_ofNat (by omega)]
  omega

/-- Of the bytes of a character all but the first go on with it. -/
theorem encodeChar_eq_cons (c : Char) :
    ∃ lead tail, encodeChar c = lead :: tail ∧ isContinuation lead = false ∧
      ∀ b ∈ tail, isContinuation b = true := by
  have hvalid := toNat_lt_surrogates_or c
  simp only [encodeChar]
  split_ifs with h1 h2 h3
  · refine ⟨_, _, rfl, isContinuation_lead (by omega) (by omega), ?_⟩
    intro b hmem
    exact absurd hmem List.not_mem_nil
  all_goals
    refine ⟨_, _, rfl, isContinuation_lead (by omega) (by omega), ?_⟩
    simp only [List.mem_cons, List.not_mem_nil, or_false, forall_eq_or_imp, forall_eq,
      isContinuation_tail, and_self]

theorem isBoundary_encode_length (first rest : List Char) :
    isBoundary (encode (first ++ rest)) (encode first).length = true := by
  rw [encode_append, isBoundary, Bool.or_eq_true]
  right
  rw [List.getElem?_append_right (Nat.le_refl _), Nat.sub_self]
  cases rest with
  | nil =>
      rw [encode, List.flatMap_nil, List.append_nil]
      exact beq_self_eq_true _
  | cons c rest =>
      obtain ⟨lead, tail, hbytes, hlead, -⟩ := encodeChar_eq_cons c
      rw [encode, List.flatMap_cons, hbytes, List.cons_append, List.getElem?_cons_zero]
      simp only [hlead, Bool.not_false]

/-- Behind its start a text may not be cut before its first character is over, and from there on
only where the rest of it may be. -/
theorem isBoundary_of_encode_cons {c : Char} {cs : List Char} {index : Nat} (hpos : 0 < index)
    (hcut : isBoundary (encode (c :: cs)) index = true) :
    width c ≤ index ∧ isBoundary (encode cs) (index - width c) = true := by
  obtain ⟨lead, tail, hbytes, -, htail⟩ := encodeChar_eq_cons c
  have hwidth := length_encodeChar c
  rw [encode, List.flatMap_cons, ← encode, isBoundary, beq_false_of_ne (Nat.ne_of_gt hpos),
    Bool.false_or] at hcut
  by_cases hle : width c ≤ index
  · refine ⟨hle, ?_⟩
    rw [List.getElem?_append_right (by omega), hwidth, List.length_append, hwidth] at hcut
    rw [isBoundary, Bool.or_eq_true]
    right
    split at hcut
    next b hbyte =>
      rw [hbyte]
      exact hcut
    next hend =>
      rw [beq_iff_eq] at hcut
      rw [hend]
      exact beq_iff_eq.mpr (by omega)
  · obtain ⟨i, rfl⟩ := Nat.exists_eq_succ_of_ne_zero (Nat.ne_of_gt hpos)
    rw [List.getElem?_append_left (by omega), hbytes, List.getElem?_cons_succ] at hcut
    rw [hbytes, List.length_cons] at hwidth
    have hbyte : tail[i]? = some tail[i] := List.getElem?_eq_getElem (by omega)
    rw [hbyte] at hcut
    simp only [htail _ (List.getElem_mem _), Bool.not_true, Bool.false_eq_true] at hcut

/-- The bytes of a text may be cut just where they are those of a leading part of it. -/
theorem isBoundary_encode_iff {cs : List Char} {index : Nat} :
    isBoundary (encode cs) index = true ↔
      ∃ first, first <+: cs ∧ (encode first).length = index := by
  constructor
  · intro hcut
    induction cs generalizing index with
    | nil =>
        cases index with
        | zero => exact ⟨[], List.nil_prefix, rfl⟩
        | succ index => cases hcut
    | cons c cs ih =>
        obtain rfl | hpos := Nat.eq_zero_or_pos index
        · exact ⟨[], List.nil_prefix, rfl⟩
        obtain ⟨hle, hrest⟩ := isBoundary_of_encode_cons hpos hcut
        obtain ⟨first, hfirst, hlength⟩ := ih hrest
        refine ⟨c :: first, List.cons_prefix_cons.mpr ⟨rfl, hfirst⟩, ?_⟩
        rw [length_encode_cons, hlength, Nat.add_sub_cancel' hle]
  · rintro ⟨first, ⟨rest, rfl⟩, rfl⟩
    exact isBoundary_encode_length first rest

/-! ## Going back to it -/

/-- Going back from one index to another, byte by byte, for as long as the bytes may not be cut. -/
inductive GoesBack (bytes : Bytes) : Nat → Nat → Prop
  | stop {index : Nat} (hcut : isBoundary bytes index = true) : GoesBack bytes index index
  | back {index found : Nat} (hinside : isBoundary bytes (index + 1) = false)
      (hrest : GoesBack bytes index found) : GoesBack bytes (index + 1) found

/-- Whatever the bytes are, going back comes to an end, at the latest at their start. -/
theorem goesBack_lastBoundary (bytes : Bytes) (index : Nat) :
    GoesBack bytes index (lastBoundary bytes index) := by
  induction index with
  | zero => exact .stop rfl
  | succ index ih =>
      rw [lastBoundary]
      split
      next hcut => exact .stop hcut
      next hinside => exact .back (Bool.not_eq_true _ ▸ hinside) ih

namespace GoesBack

variable {bytes : Bytes} {index found : Nat}

theorem isBoundary_found (h : GoesBack bytes index found) : isBoundary bytes found = true := by
  induction h with
  | stop hcut => exact hcut
  | back _ _ ih => exact ih

theorem found_le (h : GoesBack bytes index found) : found ≤ index := by
  induction h with
  | stop _ => exact Nat.le_refl _
  | back _ _ ih => exact Nat.le_succ_of_le ih

/-- No place to cut is passed. -/
theorem le_found (h : GoesBack bytes index found) {other : Nat} (hle : other ≤ index)
    (hcut : isBoundary bytes other = true) : other ≤ found := by
  induction h with
  | stop _ => exact hle
  | back hinside _ ih =>
      refine ih (Nat.le_of_lt_succ (Nat.lt_of_le_of_ne hle ?_))
      rintro rfl
      cases hinside.symm.trans hcut

end GoesBack

/-- Going back from a limit finds the end of the longest leading part that fits. -/
theorem lastBoundary_encode (cs : List Char) (room : Nat) :
    lastBoundary (encode cs) (min (encode cs).length room) =
      (encode (fitting room cs)).length := by
  have hback := goesBack_lastBoundary (encode cs) (min (encode cs).length room)
  generalize lastBoundary (encode cs) (min (encode cs).length room) = found at hback
  obtain ⟨first, hfirst, rfl⟩ := isBoundary_encode_iff.mp hback.isBoundary_found
  have hkept := fitting_prefix room cs
  apply Nat.le_antisymm
  · have hroom := Nat.le_trans hback.found_le (Nat.min_le_right _ _)
    exact (encode_prefix_encode (prefix_fitting hfirst hroom)).length_le
  · refine hback.le_found (Nat.le_min.mpr ⟨?_, ?_⟩) ?_
    · exact (encode_prefix_encode hkept).length_le
    · exact length_encode_fitting room cs
    · exact isBoundary_encode_iff.mpr ⟨_, hkept, rfl⟩

theorem width_le (c : Char) : width c ≤ 4 := by
  rw [width]
  split_ifs <;> decide

/-- Where something is left out, the bytes left free are fewer than the widest character has. -/
theorem lt_length_fitting_add {room : Nat} {cs : List Char} (h : room < (encode cs).length) :
    room < (encode (fitting room cs)).length + 4 := by
  induction cs generalizing room with
  | nil => exact absurd h (Nat.not_lt_zero _)
  | cons c cs ih =>
      have hwidth := width_le c
      rw [length_encode_cons] at h
      rw [fitting]
      split
      next hfits =>
        have hrest : room - width c < (encode (fitting (room - width c) cs)).length + 4 :=
          ih (by omega)
        rw [length_encode_cons]
        omega
      next hfull => omega

end StreamStore.Utf8
