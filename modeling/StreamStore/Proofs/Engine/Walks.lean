import Mathlib.Data.UInt
import StreamStore.Proofs.Engine.Hydration

/-!
# Walking through a stream

A page is a slice of a stream's events, and its indices are worked out in machine words
without a sum that does not fit.  A reader that goes on where its last page ended gets every
event once: forward from the first to the last, until a page is empty, and backward from the
last to the first, until it has the first one.
-/

namespace StreamStore

namespace Page

variable {α : Type} {xs : List α}

/-! ## Slices -/

theorem slice_forward (xs : List α) (p m : Nat) :
    slice xs p .forward m = xs.extract p (min (p + m) xs.length) := by
  rw [slice, Int.toNat_natCast, List.extract_eq_take_drop]
  by_cases hwithin : p + m ≤ xs.length
  · rw [min_eq_left hwithin, Nat.add_sub_cancel_left]
  · rw [min_eq_right (by omega), List.take_of_length_le (by rw [List.length_drop]; omega),
      List.take_of_length_le (by rw [List.length_drop])]

theorem backwardStart?_last (n : Nat) :
    backwardStart? n last = if n = 0 then none else some (n - 1) := by
  rw [backwardStart?, if_pos rfl]

theorem backwardStart?_natCast {n p : Nat} (hne : (p : Int) ≠ last) :
    backwardStart? n p = if p < n then some p else none := by
  rw [backwardStart?, if_neg hne, Int.toNat_natCast]
  by_cases hp : p < n
  · rw [if_pos hp, if_pos ⟨Int.natCast_nonneg p, Int.ofNat_lt.mpr hp⟩]
  · rw [if_neg hp, if_neg fun h => hp (Int.ofNat_lt.mp h.2)]

theorem of_backwardStart? {n i : Nat} {start : Int} (h : backwardStart? n start = some i) :
    i < n ∧ (if start = last then n - 1 else start.toNat) = i := by
  rw [backwardStart?] at h
  by_cases hlast : start = last
  · rw [if_pos hlast] at h ⊢
    split at h
    · cases h
    · cases h
      omega
  · rw [if_neg hlast] at h ⊢
    split at h
    · cases h
      omega
    · cases h

/-- The events from the one that a position stands for back to the first one. -/
def backFrom (xs : List α) (start : Int) : List α :=
  match backwardStart? xs.length start with
  | some i => (xs.take (i + 1)).reverse
  | none => []

theorem slice_backward (xs : List α) (start : Int) (m : Nat) :
    slice xs start .backward m = (backFrom xs start).take m := by
  rw [slice, backFrom]
  cases backwardStart? xs.length start with
  | none => exact List.take_nil.symm
  | some i => rfl

theorem backFrom_natCast {i : Nat} (hi : i < xs.length) (hlength : (xs.length : Int) ≤ last) :
    backFrom xs i = (xs.take (i + 1)).reverse := by
  rw [backFrom, backwardStart?_natCast (by omega), if_pos hi]

theorem backFrom_last (xs : List α) : backFrom xs last = xs.reverse := by
  rw [backFrom, backwardStart?_last]
  by_cases hnil : xs.length = 0
  · rw [if_pos hnil, List.length_eq_zero_iff.mp hnil]
    rfl
  · rw [if_neg hnil]
    exact congrArg List.reverse (List.take_of_length_le (by omega))

theorem backFrom_beyond {start : Int} (hbeyond : xs.length ≤ start) (hne : start ≠ last) :
    backFrom xs start = [] := by
  have hnot : ¬(0 ≤ start ∧ start < xs.length) := fun h => not_lt_of_ge hbeyond h.2
  rw [backFrom, backwardStart?, if_neg hne, if_neg hnot]

/-- What lies behind a page on the way. -/
theorem take_append_drop_length (xs : List α) (m : Nat) :
    xs.take m ++ xs.drop (xs.take m).length = xs := by
  rw [List.length_take]
  rcases Nat.le_total m xs.length with hle | hle
  · rw [min_eq_left hle, List.take_append_drop]
  · rw [min_eq_right hle, List.drop_length, List.append_nil, List.take_of_length_le hle]

theorem eq_nil_of_take_eq_nil {m : Nat} (hm : 1 ≤ m) (h : xs.take m = []) : xs = [] := by
  rcases List.take_eq_nil_iff.mp h with hzero | hnil
  · omega
  · exact hnil

/-! ## In machine words -/

/-- A position as an index, if it is one. -/
def index? (start : Int64) : Option UInt64 := if start < 0 then none else some start.toUInt64

/-- The sum of two words, if it is one. -/
def add? (a b : UInt64) : Option UInt64 :=
  if a.toNat + b.toNat < UInt64.size then some (a + b) else none

/-- The sum of two words, or the greatest word. -/
def addClamped (a b : UInt64) : UInt64 := .ofNatClamp (a.toNat + b.toNat)

/-- The difference of two words, or zero. -/
def subClamped (a b : UInt64) : UInt64 := if b ≤ a then a - b else 0

/-- The index that a page starts with when it runs backward, if the stream has it. -/
def lastIndex? (length : UInt64) (start : Int64) : Option UInt64 :=
  if start = Int64.maxValue then (if length = 0 then none else some (length - 1))
  else (index? start).filter (· < length)

/-- The indices of the events on a page, in the order of the page; there are none where a
sum does not fit into a word. -/
def indices? (length : UInt64) (start : Int64) (direction : Direction) (limit : UInt64) :
    Option (List Nat) :=
  match direction with
  | .forward =>
    let first := (index? start).getD (.ofNatClamp UInt64.size)
    if length ≤ first then some []
    else some (List.range' first.toNat
      ((min (addClamped first limit) length).toNat - first.toNat))
  | .backward =>
    match lastIndex? length start with
    | none => some []
    | some last => (add? last 1).map fun next =>
      let first := subClamped next limit
      (List.range' first.toNat (last.toNat + 1 - first.toNat)).reverse

theorem toNat_addClamped (a b : UInt64) :
    (addClamped a b).toNat = min (a.toNat + b.toNat) (UInt64.size - 1) := by
  rw [addClamped, UInt64.ofNatClamp]
  split
  next hlt =>
    rw [UInt64.toNat_ofNatLT]
    omega
  next hge =>
    rw [UInt64.toNat_ofNatLT]
    omega

theorem toNat_subClamped (a b : UInt64) : (subClamped a b).toNat = a.toNat - b.toNat := by
  rw [subClamped]
  split
  next hle => exact UInt64.toNat_sub_of_le a b hle
  next hnot =>
    have hlt : ¬b.toNat ≤ a.toNat := fun hle => hnot (UInt64.le_iff_toNat_le.mpr hle)
    rw [Nat.sub_eq_zero_of_le (by omega)]
    rfl

theorem exists_index? {start : Int64} (hstart : 0 ≤ start) :
    ∃ first, index? start = some first ∧ first.toNat = start.toInt.toNat := by
  refine ⟨start.toUInt64, if_neg ?_, Int64.toNat_toUInt64_of_le hstart⟩
  rw [Int64.lt_iff_toInt_lt]
  exact not_lt_of_ge (Int64.le_iff_toInt_le.mp hstart)

/-- The events at successive indices are a stretch of the list. -/
theorem map_getElem?_range' {i k : Nat} (h : i + k ≤ xs.length) :
    (List.range' i k).map (xs[·]?) = ((xs.drop i).take k).map some := by
  apply List.ext_getElem
  · rw [List.length_map, List.length_range', List.length_map, List.length_take,
      List.length_drop]
    omega
  · intro j hj hj'
    rw [List.length_map, List.length_range'] at hj
    rw [List.getElem_map, List.getElem_map, List.getElem_range', List.getElem_take,
      List.getElem_drop, Nat.one_mul, List.getElem?_eq_getElem (by omega)]

theorem toNat_ofNat_of_le_last {n : Nat} (hn : (n : Int) ≤ last) : (UInt64.ofNat n).toNat = n := by
  have hlast : last < (UInt64.size : Int) := by decide
  exact UInt64.toNat_ofNat_of_lt' (Int.ofNat_lt.mp (hn.trans_lt hlast))

theorem map_lastIndex? {n : Nat} (hn : (n : Int) ≤ last) {start : Int64} (hstart : 0 ≤ start) :
    (lastIndex? (.ofNat n) start).map UInt64.toNat = backwardStart? n start.toInt := by
  have hsize := toNat_ofNat_of_le_last hn
  by_cases hlast : start = Int64.maxValue
  · have hzero : UInt64.ofNat n = 0 ↔ n = 0 := by
      rw [← UInt64.toNat_inj, hsize]
      rfl
    rw [lastIndex?, if_pos hlast, hlast, show Int64.maxValue.toInt = last from rfl,
      backwardStart?_last]
    by_cases hnil : n = 0
    · rw [if_pos (hzero.mpr hnil), if_pos hnil, Option.map_none]
    · have hle : (1 : UInt64) ≤ .ofNat n := by
        rw [UInt64.le_iff_toNat_le, hsize]
        exact Nat.one_le_iff_ne_zero.mpr hnil
      rw [if_neg (hzero.not.mpr hnil), if_neg hnil, Option.map_some,
        UInt64.toNat_sub_of_le _ _ hle, hsize]
      rfl
  · have hne : start.toInt ≠ last := by
      intro heq
      exact hlast (Int64.toInt_inj.mp heq)
    obtain ⟨p, hp⟩ := Int.eq_ofNat_of_zero_le (Int64.le_iff_toInt_le.mp hstart)
    obtain ⟨first, hindex, hfirst⟩ := exists_index? hstart
    rw [hp, Int.toNat_natCast] at hfirst
    rw [hp] at hne
    have hlt : first < .ofNat n ↔ p < n := by
      rw [UInt64.lt_iff_toNat_lt, hsize, hfirst]
    rw [lastIndex?, if_neg hlast, hindex, hp, backwardStart?_natCast hne, Option.filter_some]
    simp only [decide_eq_true_eq, hlt]
    split
    · rw [Option.map_some, hfirst]
    · rfl

/-- Every sum of words is one, and the indices are those of the events on the page. -/
theorem exists_indices? (hlength : (xs.length : Int) ≤ last) {start : Int64}
    (hstart : 0 ≤ start) (direction : Direction) (limit : UInt64) :
    ∃ is, indices? (.ofNat xs.length) start direction limit = some is ∧
      is.map (xs[·]?) = (slice xs start.toInt direction limit.toNat).map some := by
  have hsize := toNat_ofNat_of_le_last hlength
  have hfits : xs.length < UInt64.size := by
    rw [← hsize]
    exact UInt64.toNat_lt_size _
  cases direction with
  | forward =>
      obtain ⟨first, hindex, hfirst⟩ := exists_index? hstart
      have hbeyond : UInt64.ofNat xs.length ≤ first ↔ xs.length ≤ first.toNat := by
        rw [UInt64.le_iff_toNat_le, hsize]
      rw [indices?, hindex, Option.getD_some, slice, ← hfirst]
      by_cases hp : xs.length ≤ first.toNat
      · refine ⟨[], if_pos (hbeyond.mpr hp), ?_⟩
        rw [List.drop_of_length_le hp, List.take_nil]
        rfl
      · refine ⟨_, if_neg (hbeyond.not.mpr hp), ?_⟩
        rw [UInt64.toNat_min, toNat_addClamped, hsize, map_getElem?_range' (by omega)]
        by_cases hwithin : first.toNat + limit.toNat ≤ xs.length
        · rw [show min (min (first.toNat + limit.toNat) (UInt64.size - 1)) xs.length -
            first.toNat = limit.toNat by omega]
        · rw [List.take_of_length_le (by rw [List.length_drop]; omega),
            List.take_of_length_le (by rw [List.length_drop]; omega)]
  | backward =>
      have hstarts := map_lastIndex? hlength hstart
      rw [indices?, slice, ← hstarts]
      cases hlast : lastIndex? (.ofNat xs.length) start with
      | none => exact ⟨[], rfl, rfl⟩
      | some i =>
          rw [hlast, Option.map_some] at hstarts
          have hi : i.toNat < xs.length := (of_backwardStart? hstarts.symm).1
          have hadd : add? i 1 = some (i + 1) := if_pos (Nat.lt_of_le_of_lt hi hfits)
          have hnext : (i + 1).toNat = i.toNat + 1 := by
            rw [UInt64.toNat_add]
            exact Nat.mod_eq_of_lt (Nat.lt_of_le_of_lt hi hfits)
          refine ⟨_, congrArg (Option.map _) hadd, ?_⟩
          simp only [Option.map_some]
          rw [toNat_subClamped, hnext, List.map_reverse, map_getElem?_range' (by omega),
            List.take_reverse, List.map_reverse, List.length_take, min_eq_left hi,
            List.drop_take]

end Page

namespace Engine

variable {e e' : Engine} {s : StreamId} {t : TaskId} {m : Nat} {xs ys page : List Event}

theorem page_of_answers {r : PageRequest} (hstill : e.Still) (hserves : e.Serves r.stream xs)
    (hstart : 0 ≤ r.start) (h : e.Answers t (.page r .start) (.events (.ok page)) e') :
    page = Page.slice xs r.start r.direction r.limit ∧ e'.Still ∧ e'.Serves r.stream xs := by
  obtain ⟨e'', hanswers, hstill', hserves'⟩ := answers_page hstill hserves hstart t
  obtain ⟨heq, rfl⟩ := h.unique hanswers
  exact ⟨Except.ok.inj (Answer.events.inj heq), hstill', hserves'⟩

/-! ## Forward -/

/-- A task reads forward from a position, each time from where its last page ended, until a
page is empty. -/
inductive WalksForward (s : StreamId) (t : TaskId) (m : Nat) :
    Engine → Nat → List Event → Prop
  | stop {e e' : Engine} {p : Nat}
      (hpage : e.Answers t (.page ⟨s, p, .forward, m⟩ .start) (.events (.ok [])) e') :
      WalksForward s t m e p []
  | next {e e' : Engine} {p : Nat} {page rest : List Event}
      (hpage : e.Answers t (.page ⟨s, p, .forward, m⟩ .start) (.events (.ok page)) e')
      (hsome : page ≠ []) (hrest : WalksForward s t m e' (p + page.length) rest) :
      WalksForward s t m e p (page ++ rest)

/-- Whoever walks forward gets what is left. -/
theorem WalksForward.eq_drop (hm : 1 ≤ m) {p : Nat} (h : WalksForward s t m e p ys)
    (hstill : e.Still) (hserves : e.Serves s xs) : ys = xs.drop p := by
  induction h with
  | stop hpage =>
      obtain ⟨hslice, -⟩ := page_of_answers hstill hserves (Int.natCast_nonneg _) hpage
      exact (Page.eq_nil_of_take_eq_nil hm hslice.symm).symm
  | @next _ _ p page _ hpage hsome hrest ih =>
      obtain ⟨hslice, hstill', hserves'⟩ :=
        page_of_answers hstill hserves (Int.natCast_nonneg p) hpage
      have hpage' : page = (xs.drop p).take m := hslice
      rw [ih hstill' hserves', ← List.drop_drop, hpage']
      exact Page.take_append_drop_length _ m

theorem walksForward_drop (hm : 1 ≤ m) (p : Nat) (hstill : e.Still) (hserves : e.Serves s xs) :
    WalksForward s t m e p (xs.drop p) := by
  generalize hleft : xs.length - p = left
  induction left using Nat.strongRecOn generalizing e p with
  | ind left ih =>
      obtain ⟨e', hanswers, hstill', hserves'⟩ :=
        answers_page (r := ⟨s, p, .forward, m⟩) hstill hserves (Int.natCast_nonneg p) t
      have hslice : Page.slice xs p .forward m = (xs.drop p).take m := rfl
      simp only [hslice] at hanswers
      by_cases hend : xs.drop p = []
      · rw [hend, List.take_nil] at hanswers
        rw [hend]
        exact .stop hanswers
      · have hsome : (xs.drop p).take m ≠ [] := fun h => hend (Page.eq_nil_of_take_eq_nil hm h)
        have hpos := List.length_pos_of_ne_nil hsome
        have hlt : p < xs.length := by
          by_contra hge
          exact hend (List.drop_of_length_le (Nat.le_of_not_lt hge))
        have hrest := ih _ (by omega) (p + ((xs.drop p).take m).length) hstill' hserves' rfl
        rw [← List.drop_drop] at hrest
        have hwalk := WalksForward.next hanswers hsome hrest
        rwa [Page.take_append_drop_length] at hwalk

/-! ## Backward -/

/-- The lowest index on a page of some length that runs backward from a position, in a
stream of `n` events. -/
def lowest (n : Nat) (start : Int) (length : Nat) : Nat :=
  (if start = Page.last then n - 1 else start.toNat) + 1 - length

/-- A task reads backward from a position in a stream of `n` events, each time from below
the lowest index that it received, until that is zero or a page is empty. -/
inductive WalksBackward (s : StreamId) (t : TaskId) (m n : Nat) :
    Engine → Int → List Event → Prop
  | stop {e e' : Engine} {start : Int}
      (hpage : e.Answers t (.page ⟨s, start, .backward, m⟩ .start) (.events (.ok [])) e') :
      WalksBackward s t m n e start []
  | first {e e' : Engine} {start : Int} {page : List Event}
      (hpage : e.Answers t (.page ⟨s, start, .backward, m⟩ .start) (.events (.ok page)) e')
      (hsome : page ≠ []) (hlowest : lowest n start page.length = 0) :
      WalksBackward s t m n e start page
  | next {e e' : Engine} {start : Int} {page rest : List Event} {i : Nat}
      (hpage : e.Answers t (.page ⟨s, start, .backward, m⟩ .start) (.events (.ok page)) e')
      (hsome : page ≠ []) (hlowest : lowest n start page.length = i + 1)
      (hrest : WalksBackward s t m n e' i rest) :
      WalksBackward s t m n e start (page ++ rest)

/-- Nothing is left, or what starts at some index of the stream. -/
theorem backFrom_cases (xs : List Event) (start : Int) :
    Page.backFrom xs start = [] ∨ ∃ i < xs.length,
      Page.backFrom xs start = (xs.take (i + 1)).reverse ∧
        ∀ length, lowest xs.length start length = i + 1 - length := by
  rw [Page.backFrom]
  cases hstart : Page.backwardStart? xs.length start with
  | none => exact .inl rfl
  | some i =>
      obtain ⟨hi, hindex⟩ := Page.of_backwardStart? hstart
      refine .inr ⟨i, hi, rfl, fun length => ?_⟩
      rw [lowest, hindex]

/-- Below the lowest index of a page lies what the page leaves. -/
theorem drop_backFrom (hlength : (xs.length : Int) ≤ Page.last) {start : Int} {k i : Nat}
    (hsome : Page.backFrom xs start ≠ []) (hlowest : lowest xs.length start k = i + 1) :
    (Page.backFrom xs start).drop k = Page.backFrom xs i := by
  rcases backFrom_cases xs start with hnil | ⟨j, hj, hback, hindex⟩
  · exact absurd hnil hsome
  · rw [hindex] at hlowest
    rw [hback, Page.backFrom_natCast (by omega) hlength, List.drop_reverse, List.length_take,
      min_eq_left hj, hlowest, List.take_take, min_eq_left (by omega)]

/-- A page that has the lowest index of all leaves nothing. -/
theorem drop_backFrom_eq_nil {start : Int} {k : Nat} (hsome : Page.backFrom xs start ≠ [])
    (hlowest : lowest xs.length start k = 0) : (Page.backFrom xs start).drop k = [] := by
  rcases backFrom_cases xs start with hnil | ⟨j, hj, hback, hindex⟩
  · exact absurd hnil hsome
  · rw [hindex] at hlowest
    apply List.drop_of_length_le
    rw [hback, List.length_reverse, List.length_take]
    omega

/-- Whoever walks backward gets what is left, the last event first. -/
theorem WalksBackward.eq_backFrom (hm : 1 ≤ m) (hlength : (xs.length : Int) ≤ Page.last)
    {start : Int} (h : WalksBackward s t m xs.length e start ys) (hstart : 0 ≤ start)
    (hstill : e.Still) (hserves : e.Serves s xs) : ys = Page.backFrom xs start := by
  induction h with
  | stop hpage =>
      obtain ⟨hslice, -⟩ := page_of_answers hstill hserves hstart hpage
      rw [Page.slice_backward] at hslice
      exact (Page.eq_nil_of_take_eq_nil hm hslice.symm).symm
  | @first _ _ start page hpage hsome hlowest =>
      obtain ⟨hslice, -⟩ := page_of_answers hstill hserves hstart hpage
      rw [Page.slice_backward] at hslice
      have hback := List.ne_nil_of_take_ne_nil (hslice ▸ hsome)
      have hrest := drop_backFrom_eq_nil hback hlowest
      have hall := Page.take_append_drop_length (Page.backFrom xs start) m
      rw [← hslice, hrest, List.append_nil] at hall
      exact hall
  | @next _ _ start page rest i hpage hsome hlowest hrest ih =>
      obtain ⟨hslice, hstill', hserves'⟩ := page_of_answers hstill hserves hstart hpage
      rw [Page.slice_backward] at hslice
      have hback := List.ne_nil_of_take_ne_nil (hslice ▸ hsome)
      rw [ih (Int.natCast_nonneg i) hstill' hserves', ← drop_backFrom hlength hback hlowest,
        hslice]
      exact Page.take_append_drop_length _ m

theorem walksBackward_backFrom (hm : 1 ≤ m) (hlength : (xs.length : Int) ≤ Page.last)
    {start : Int} (hstart : 0 ≤ start) (hstill : e.Still) (hserves : e.Serves s xs) :
    WalksBackward s t m xs.length e start (Page.backFrom xs start) := by
  generalize hleft : (Page.backFrom xs start).length = left
  induction left using Nat.strongRecOn generalizing e start with
  | ind left ih =>
      obtain ⟨e', hanswers, hstill', hserves'⟩ :=
        answers_page (r := ⟨s, start, .backward, m⟩) hstill hserves hstart t
      simp only [Page.slice_backward] at hanswers
      by_cases hback : Page.backFrom xs start = []
      · rw [hback, List.take_nil] at hanswers
        rw [hback]
        exact .stop hanswers
      · have hsome : (Page.backFrom xs start).take m ≠ [] :=
          fun h => hback (Page.eq_nil_of_take_eq_nil hm h)
        have hall := Page.take_append_drop_length (Page.backFrom xs start) m
        cases hlowest : lowest xs.length start ((Page.backFrom xs start).take m).length with
        | zero =>
            rw [drop_backFrom_eq_nil hback hlowest, List.append_nil] at hall
            have hwalk := WalksBackward.first hanswers hsome hlowest
            rwa [hall] at hwalk
        | succ i =>
            have hrest := drop_backFrom hlength hback hlowest
            have hshorter : (Page.backFrom xs i).length < left := by
              have hpos := List.length_pos_of_ne_nil hsome
              have hpage := List.length_pos_of_ne_nil hback
              rw [← hrest, List.length_drop, ← hleft]
              omega
            have hwalk := WalksBackward.next hanswers hsome hlowest
              (ih _ hshorter (Int.natCast_nonneg i) hstill' hserves' rfl)
            rwa [← hrest, hall] at hwalk

/-! ## Pages and walks -/

/-- Pages are slices of a stream's events, and they tile it. -/
structure PagesTile (e : Engine) (s : StreamId) (xs : List Event) : Prop where
  /-- A position below zero is refused at once, and nothing else happens. -/
  refuses : ∀ start < 0, ∀ direction m t cancelled w,
    (Work.page ⟨s, start, direction, m⟩ .start).step e t cancelled w =
      some (e, .page ⟨s, start, direction, m⟩
        (.done (.error (.badRequest (.negativeStart start)))))
  forward : ∀ (p m : Nat) t, ∃ e', e.Answers t (.page ⟨s, p, .forward, m⟩ .start)
    (.events (.ok (xs.extract p (min (p + m) xs.length)))) e'
  /-- Behind the events there is nothing, and the greatest position is behind them. -/
  forwardBeyond : ∀ start : Int, (xs.length ≤ start ∨ start = Page.last) → ∀ m t,
    ∃ e', e.Answers t (.page ⟨s, start, .forward, m⟩ .start) (.events (.ok [])) e'
  backward : ∀ p < xs.length, ∀ m t, ∃ e', e.Answers t (.page ⟨s, p, .backward, m⟩ .start)
    (.events (.ok ((xs.take (p + 1)).reverse.take m))) e'
  /-- The greatest position stands for the last event. -/
  backwardLast : ∀ m t, ∃ e', e.Answers t (.page ⟨s, Page.last, .backward, m⟩ .start)
    (.events (.ok (xs.reverse.take m))) e'
  backwardBeyond : ∀ start : Int, xs.length ≤ start → start ≠ Page.last → ∀ m t,
    ∃ e', e.Answers t (.page ⟨s, start, .backward, m⟩ .start) (.events (.ok [])) e'
  /-- Worked out in machine words, the indices of a page are those of its events. -/
  words : ∀ (start : Int64) (direction : Direction) (limit : UInt64), 0 ≤ start → ∃ is,
    Page.indices? (.ofNat xs.length) start direction limit = some is ∧
      ∀ t, ∃ page e', is.map (xs[·]?) = page.map some ∧
        e.Answers t (.page ⟨s, start.toInt, direction, limit.toNat⟩ .start)
          (.events (.ok page)) e'
  /-- A walk forward comes to an end, and with exactly the events. -/
  walksForward : ∀ m, 1 ≤ m → ∀ t ys, WalksForward s t m e 0 ys ↔ ys = xs
  walksBackward : ∀ m, 1 ≤ m → ∀ t ys,
    WalksBackward s t m xs.length e Page.last ys ↔ ys = xs.reverse

theorem pagesTile_of_serves (hstill : e.Still) (hserves : e.Serves s xs)
    (hlength : (xs.length : Int) ≤ Page.last) : e.PagesTile s xs := by
  have hlast : 0 ≤ Page.last := by decide
  have hpages (start : Int) (hstart : 0 ≤ start) (direction : Direction) (m : Nat) (t : TaskId) :
      ∃ e', e.Answers t (.page ⟨s, start, direction, m⟩ .start)
        (.events (.ok (Page.slice xs start direction m))) e' := by
    obtain ⟨e', hanswers, -⟩ :=
      answers_page (r := ⟨s, start, direction, m⟩) hstill hserves hstart t
    exact ⟨e', hanswers⟩
  constructor
  · intro start hstart direction m t cancelled w
    rw [Work.step, Paging.step, if_pos hstart]
    rfl
  · intro p m t
    rw [← Page.slice_forward]
    exact hpages p (Int.natCast_nonneg p) .forward m t
  · intro start hbeyond m t
    have hle : (xs.length : Int) ≤ start := by
      rcases hbeyond with hle | rfl
      · exact hle
      · exact hlength
    have hnothing : Page.slice xs start .forward m = [] := by
      rw [Page.slice, List.drop_of_length_le (by omega), List.take_nil]
    rw [← hnothing]
    exact hpages start (by omega) .forward m t
  · intro p hp m t
    rw [← Page.backFrom_natCast hp hlength, ← Page.slice_backward]
    exact hpages p (Int.natCast_nonneg p) .backward m t
  · intro m t
    rw [← Page.backFrom_last, ← Page.slice_backward]
    exact hpages Page.last hlast .backward m t
  · intro start hle hne m t
    have hnothing : Page.slice xs start .backward m = [] := by
      rw [Page.slice_backward, Page.backFrom_beyond hle hne, List.take_nil]
    rw [← hnothing]
    exact hpages start (by omega) .backward m t
  · intro start direction limit hstart
    obtain ⟨is, hindices, hevents⟩ := Page.exists_indices? hlength hstart direction limit
    refine ⟨is, hindices, fun t => ?_⟩
    obtain ⟨e', hanswers⟩ :=
      hpages start.toInt (Int64.le_iff_toInt_le.mp hstart) direction limit.toNat t
    exact ⟨_, e', hevents, hanswers⟩
  · intro m hm t ys
    constructor
    · intro hwalk
      exact hwalk.eq_drop hm hstill hserves
    · rintro rfl
      exact walksForward_drop hm 0 hstill hserves
  · intro m hm t ys
    rw [← Page.backFrom_last]
    constructor
    · intro hwalk
      exact hwalk.eq_backFrom hm hlength hlast hstill hserves
    · rintro rfl
      exact walksBackward_backFrom hm hlength hlast hstill hserves

/-- Two events on disk, in pages of one: three pages forward, of which the last is empty, and
two backward. -/
theorem pagesTile_of_stored :
    ∃ e : Engine, e.Still ∧ e.Serves Archive.orders [Archive.placed, Archive.paid] ∧
      (([Archive.placed, Archive.paid].length : Nat) : Int) ≤ Page.last ∧
      e.PagesTile Archive.orders [Archive.placed, Archive.paid] ∧
      WalksForward Archive.orders 0 1 e 0 [Archive.placed, Archive.paid] ∧
      WalksBackward Archive.orders 0 1 2 e Page.last [Archive.paid, Archive.placed] := by
  let e := ofArchive {}
    (Archive.blank.append Archive.orders [Archive.placed, Archive.paid] none).2 0
  have hstill : e.Still := ofArchive_still _ _ _
  have hserves : e.Serves Archive.orders [Archive.placed, Archive.paid] := by
    refine .stored rfl rfl ?_
    decide +kernel
  have hlength : (([Archive.placed, Archive.paid].length : Nat) : Int) ≤ Page.last := by decide
  have htile := pagesTile_of_serves hstill hserves hlength
  refine ⟨e, hstill, hserves, hlength, htile, ?_, ?_⟩
  · exact (htile.walksForward 1 le_rfl 0 _).mpr rfl
  · exact (htile.walksBackward 1 le_rfl 0 _).mpr rfl

end Engine

end StreamStore
