import Mathlib.Data.List.Infix
import StreamStore.Proofs.Storage.Extents

/-!
# Looks at a token of cancellation

A token is looked at before each record.  How many looks it stands decides how many records are
laid out, and whether laying them out comes to its end.
-/

namespace StreamStore

/-! ## Looks at a token -/

namespace Patience

/-- The patience left after a number of looks, `none` when one of them finds the token
cancelled. -/
def after : Patience → Nat → Option Patience
  | none, _ => some none
  | some looks, n => if n ≤ looks then some (some (looks - n)) else none

/-- How many of `n` records are written before a look finds the token cancelled. -/
def upTo : Patience → Nat → Nat
  | none, n => n
  | some looks, n => min looks n

theorem after_zero (patience : Patience) : patience.after 0 = some patience := by
  cases patience with
  | none => rfl
  | some looks => rfl

theorem look_eq_none_iff {patience : Patience} : patience.look = none ↔ patience = some 0 := by
  cases patience with
  | none => simp [look]
  | some looks => cases looks <;> simp [look]

/-- After one look, the others are those of the patience that is left. -/
theorem after_succ {patience patience₁ : Patience} (hlook : patience.look = some patience₁)
    (n : Nat) : patience.after (n + 1) = patience₁.after n := by
  cases patience with
  | none =>
      cases hlook
      rfl
  | some looks =>
      cases looks with
      | zero => cases hlook
      | succ looks =>
          cases hlook
          simp only [after, Nat.add_le_add_iff_right, Nat.add_sub_add_right]

theorem upTo_succ {patience patience₁ : Patience} (hlook : patience.look = some patience₁)
    (n : Nat) : patience.upTo (n + 1) = patience₁.upTo n + 1 := by
  cases patience with
  | none =>
      cases hlook
      rfl
  | some looks =>
      cases looks with
      | zero => cases hlook
      | succ looks =>
          cases hlook
          exact Nat.add_min_add_right looks n 1

theorem after_add {patience patience₁ : Patience} {n : Nat}
    (hfirst : patience.after n = some patience₁) (m : Nat) :
    patience.after (n + m) = patience₁.after m := by
  induction n generalizing patience with
  | zero =>
      rw [after_zero] at hfirst
      cases hfirst
      rw [Nat.zero_add]
  | succ n ih =>
      cases hlook : patience.look with
      | none =>
          rw [look_eq_none_iff] at hlook
          subst hlook
          cases hfirst
      | some patience₂ =>
          rw [after_succ hlook] at hfirst
          rw [Nat.succ_add, after_succ hlook, ih hfirst]

/-- A token that is found cancelled within some looks is so within more. -/
theorem after_add_eq_none {patience : Patience} {n : Nat} (hafter : patience.after n = none)
    (m : Nat) : patience.after (n + m) = none := by
  cases patience with
  | none => cases hafter
  | some looks =>
      rw [after] at hafter ⊢
      split at hafter
      · cases hafter
      next hlt => exact if_neg (by omega)

theorem upTo_of_after {patience patience₁ : Patience} {n : Nat}
    (hafter : patience.after n = some patience₁) : patience.upTo n = n := by
  cases patience with
  | none => rfl
  | some looks =>
      rw [after] at hafter
      split at hafter
      next hle => exact Nat.min_eq_right hle
      · cases hafter

end Patience

/-! ## Laying out under a token -/

namespace DataFile

/-- Events whose payloads all fit are laid out to the end, unless the token is found
cancelled before. -/
theorem layOut_snd_of_fits {events : List Event}
    (hpayload : ∀ e ∈ events, e.data.length ≤ maxPayload) (patience : Patience) (offset : Nat)
    (cache : TypeCache) :
    (layOut patience offset cache events).2 =
      match patience.after events.length with
      | some left => .ok left
      | none => .error .cancelled := by
  induction events generalizing patience offset cache with
  | nil => rw [List.length_nil, Patience.after_zero, layOut]
  | cons e events ih =>
      rw [layOut, List.length_cons]
      cases hlook : patience.look with
      | none =>
          rw [Patience.look_eq_none_iff] at hlook
          subst hlook
          rfl
      | some patience₁ =>
          have hfits := hpayload e List.mem_cons_self
          have hrest := ih (fun e' he' => hpayload e' (List.mem_cons_of_mem e he')) patience₁
            (offset + ((cache.bufferOf e.type).1.bytes ++ e.data).length)
            (cache.bufferOf e.type).2
          rw [Patience.after_succ hlook]
          simp only [if_neg (Nat.not_lt.mpr hfits)]
          generalize layOut patience₁ _ _ events = laidOut at hrest ⊢
          obtain ⟨laid, result⟩ := laidOut
          simp only at hrest ⊢
          subst hrest
          cases patience₁.after events.length with
          | none => rfl
          | some left => rfl

/-- Laying out is cancelled only where the token runs out. -/
theorem after_of_layOut_cancelled {patience : Patience} {offset : Nat} {cache : TypeCache}
    {events : List Event} (hrun : (layOut patience offset cache events).2 = .error .cancelled) :
    patience.after events.length = none := by
  induction events generalizing patience offset cache with
  | nil => cases hrun
  | cons e events ih =>
      rw [layOut] at hrun
      rw [List.length_cons]
      cases hlook : patience.look with
      | none =>
          rw [Patience.look_eq_none_iff] at hlook
          subst hlook
          rfl
      | some patience₁ =>
          rw [hlook] at hrun
          simp only at hrun
          rw [Patience.after_succ hlook]
          split at hrun
          · cases hrun
          · generalize hlaid : layOut patience₁ _ _ events = laidOut at hrun
            obtain ⟨laid, result⟩ := laidOut
            simp only at hrun
            split at hrun
            · cases hrun
            · subst hrun
              apply ih
              rw [hlaid]

/-- What is laid out are the first of all records. -/
theorem layOut_bytes_prefix {cache : TypeCache} (hcache : cache.Sound) (patience : Patience)
    (offset : Nat) (events : List Event) :
    (layOut patience offset cache events).1.bytes <+: events.flatMap record := by
  induction events generalizing patience offset cache with
  | nil => exact List.nil_prefix
  | cons e events ih =>
      rw [layOut]
      split
      · exact List.nil_prefix
      next patience₁ hlook =>
        split
        · exact List.nil_prefix
        · have hrest := ih (TypeCache.sound_bufferOf hcache e.type) patience₁
            (offset + ((cache.bufferOf e.type).1.bytes ++ e.data).length)
          simp only
          split
          · exact List.nil_prefix
          · rw [List.flatMap_cons, record, ← TypeCache.bufferOf_fst hcache e.type]
            exact (List.prefix_append_right_inj _).mpr hrest

end DataFile

/-- The headers that are laid out are those before the look that finds the token
cancelled. -/
theorem HeadersFile.layOut_eq (patience : Patience) (headers : List HeaderRecord) :
    layOut patience headers =
      ((headers.take (patience.upTo headers.length)).flatMap HeaderRecord.encode,
        if (patience.after headers.length).isSome then .ok () else .error .cancelled) := by
  induction headers generalizing patience with
  | nil => rw [layOut, List.length_nil, Patience.after_zero, List.take_nil]; rfl
  | cons header headers ih =>
      rw [layOut, List.length_cons]
      cases hlook : patience.look with
      | none =>
          rw [Patience.look_eq_none_iff] at hlook
          subst hlook
          simp [Patience.upTo, Patience.after]
      | some patience₁ =>
          rw [Patience.after_succ hlook, Patience.upTo_succ hlook]
          simp only [ih]
          rw [List.take_succ_cons, List.flatMap_cons]

end StreamStore
