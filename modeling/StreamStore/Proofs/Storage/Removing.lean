import Mathlib.Data.Nat.Find
import StreamStore.Proofs.Storage.Tree

/-!
# Removing in rounds

In each round a removal tries the headers file and then the data file, whatever became of the
first.  What one round took away is still away in the next, so it is the rounds together that
remove a stream.  The removal ends with the first round in which both tries succeed, or it ends
with the last round it has, whose failure it reports.
-/

namespace StreamStore

open Disk (AgreeOff)

theorem Disk.exists?_eq_false {d : Disk} {p : Path} (h : d.lookup p = .error .notFound) :
    d.exists? p = .ok false := by
  rw [Disk.exists?, h]

namespace Extent

/-! ## One try -/

/-- What a try to remove a file comes to.  A file that is missing counts as gone, and one that is
there is gone unless something hinders; after any other outcome the disk is as it was. -/
structure Tries (p : Path) (hindrance : Option Hindrance) (d : Disk)
    (answer : Except IoFault Unit) (d' : Disk) : Prop where
  ok_iff : answer = .ok () ↔ d.lookup p = .error .notFound ∨
    hindrance = none ∧ ∃ content, d.lookup p = .ok (.file content)
  cause : ∀ fault, answer = .error fault → ∃ why, fault = .disk why ∧
    ((∃ h, hindrance = some h ∧ h.fault = why) ∨ d.removeFile p = .error why)
  gone : answer = .ok () → d'.lookup p = .error .notFound
  kept : answer ≠ .ok () → d' = d
  missing : d.lookup p = .error .notFound → d' = d
  elsewhere : AgreeOff (· = p) d d'

/-- A file that is removed is missing, and nothing else is. -/
theorem removeFile_of_file {d : Disk} {p : Path} {content : Bytes}
    (h : d.lookup p = .ok (.file content)) :
    ∃ d', d.removeFile p = .ok d' ∧ d'.lookup p = .error .notFound ∧ AgreeOff (· = p) d d' := by
  have hp : p ≠ [] := by
    rintro rfl
    cases h
  have hagree : AgreeOff (· = p) d
      { d with nodes := d.nodes.erase p, removed := d.removed ++ [(p, content)] } := by
    intro q hq
    rw [Disk.node?, Disk.node?, Table.find?_erase_of_ne _ hq]
  refine ⟨_, by rw [Disk.removeFile, h], ?_, hagree⟩
  have hclear : d.obstacle? p = none := by
    rw [Disk.lookup] at h
    split at h
    · cases h
    · assumption
  rw [Disk.lookup, Disk.obstacle?_congr, hclear, Disk.node?, if_neg hp, Table.find?_erase_self]
  intro q hq
  apply hagree
  rintro rfl
  exact Nat.lt_irrefl _ (Disk.length_lt_of_mem_ancestors hq)

/-- A try that fails changes nothing. -/
theorem tries_error {p : Path} {hindrance : Option Hindrance} {d : Disk} {why : DiskFault}
    (hthere : d.lookup p ≠ .error .notFound)
    (h : (∃ h, hindrance = some h ∧ h.fault = why) ∨ d.removeFile p = .error why) :
    Tries p hindrance d (.error (.disk why)) d where
  ok_iff := by
    apply iff_of_false nofun
    rintro (hmissing | ⟨rfl, content, hfile⟩)
    · exact hthere hmissing
    · obtain ⟨_, hsome, -⟩ | hremove := h
      · cases hsome
      · rw [Disk.removeFile, hfile] at hremove
        cases hremove
  cause fault hfault := by
    cases hfault
    exact ⟨why, rfl, h⟩
  gone := nofun
  kept _ := rfl
  missing _ := rfl
  elsewhere _ _ := rfl

/-- A try at a file that is missing has nothing to do. -/
theorem tries_missing {p : Path} {d : Disk} (h : d.lookup p = .error .notFound)
    (hindrance : Option Hindrance) : Tries p hindrance d (.ok ()) d where
  ok_iff := iff_of_true rfl (Or.inl h)
  cause := nofun
  gone _ := h
  kept _ := rfl
  missing _ := rfl
  elsewhere _ _ := rfl

/-- A try that nothing hinders leaves no file. -/
theorem tries_file {p : Path} {d d' : Disk} {content : Bytes}
    (h : d.lookup p = .ok (.file content)) (hgone : d'.lookup p = .error .notFound)
    (hagree : AgreeOff (· = p) d d') : Tries p none d (.ok ()) d' where
  ok_iff := iff_of_true rfl (Or.inr ⟨rfl, content, h⟩)
  cause := nofun
  gone _ := hgone
  kept hne := absurd rfl hne
  missing hmissing := by cases h.symm.trans hmissing
  elsewhere := hagree

theorem tries_removeIfThere (d : Disk) (p : Path) (hindrance : Option Hindrance) :
    Tries p hindrance d (removeIfThere d p hindrance).1 (removeIfThere d p hindrance).2 := by
  rcases hlookup : d.lookup p with why | _ | content
  · have hremove : d.removeFile p = .error why := by rw [Disk.removeFile, hlookup]
    rw [removeIfThere, hremove]
    by_cases hwhy : why = .notFound
    · subst hwhy
      exact tries_missing hlookup hindrance
    · have hthere : d.lookup p ≠ .error .notFound := by
        rw [hlookup]
        exact fun heq => hwhy (Except.error.inj heq)
      have htries : Tries p hindrance d (.error (.disk why)) d :=
        tries_error hthere (Or.inr hremove)
      cases why <;> first | exact absurd rfl hwhy | exact htries
  · have hremove : d.removeFile p = .error .isDirectory := by rw [Disk.removeFile, hlookup]
    have hthere : d.lookup p ≠ .error .notFound := by
      intro hmissing
      cases hlookup.symm.trans hmissing
    rw [removeIfThere, hremove]
    exact tries_error hthere (Or.inr hremove)
  · obtain ⟨d', hremove, hgone, hagree⟩ := removeFile_of_file hlookup
    rw [removeIfThere, hremove]
    cases hindrance with
    | none => exact tries_file hlookup hgone hagree
    | some h =>
        have hthere : d.lookup p ≠ .error .notFound := by
          intro hmissing
          cases hlookup.symm.trans hmissing
        exact tries_error hthere (Or.inl ⟨h, rfl, rfl⟩)

theorem IsFileOf.length_eq {base : Path} {s : StreamId} {p : Path} (h : IsFileOf base s p) :
    p.length = base.length + 2 := by
  obtain ⟨name, rfl⟩ := h.exists_name
  simp only [typeDirectory, List.length_append, List.length_singleton]

/-- Where only files of streams change, every other file of a stream is as it was, for none of them
stands on the way to another. -/
theorem IsFileOf.lookup_eq {base : Path} {s : StreamId} {q : Path} {places : Path → Prop}
    {d d' : Disk} (hq : IsFileOf base s q) (h : AgreeOff places d d')
    (hplaces : ∀ p, places p → ∃ t, IsFileOf base t p) (hne : ¬places q) :
    d'.lookup q = d.lookup q := by
  refine Disk.lookup_congr (fun p hp => h p fun hplace => ?_) (h q hne)
  obtain ⟨t, hfile⟩ := hplaces p hplace
  have hlength := Disk.length_lt_of_mem_ancestors hp
  rw [hfile.length_eq, hq.length_eq] at hlength
  exact Nat.lt_irrefl _ hlength

theorem Tries.lookup_eq {base : Path} {s t : StreamId} {p q : Path}
    {hindrance : Option Hindrance} {d d' : Disk} {answer : Except IoFault Unit}
    (h : Tries p hindrance d answer d')
    (hp : IsFileOf base s p) (hq : IsFileOf base t q) (hne : q ≠ p) :
    d'.lookup q = d.lookup q := by
  apply hq.lookup_eq h.elsewhere _ hne
  rintro _ rfl
  exact ⟨s, hp⟩

end Extent

/-! ## Rounds -/

/-- A removal of a stream's files: the disk it starts from, and what stands in the way of each of
its rounds. -/
structure Removal where
  disk : Disk
  base : Path
  stream : StreamId
  weather : Nat → Interference

namespace Removal

open Extent (Tries IsFileOf)

def extent (r : Removal) : Extent := Extent.ofStream r.base r.stream

/-- What the removal answers and leaves, with so many attempts. -/
def run (r : Removal) (attempts : Nat) : Except StorageFault Unit × Disk :=
  Extent.remove r.disk r.extent attempts r.weather

/-- The disk before a round, if the removal went on for ever. -/
def before (r : Removal) : Nat → Disk
  | 0 => r.disk
  | k + 1 => (Extent.removeOnce (r.before k) r.extent (r.weather k)).2

/-- The try of a round at the headers file. -/
def headersTry (r : Removal) (k : Nat) : Except IoFault Unit × Disk :=
  Extent.removeIfThere (r.before k) r.extent.headers (r.weather k).headers

/-- The try of a round at the data file, on the disk that the first try leaves. -/
def dataTry (r : Removal) (k : Nat) : Except IoFault Unit × Disk :=
  Extent.removeIfThere (r.headersTry k).2 r.extent.data (r.weather k).data

/-- Both tries of a round succeed. -/
def IsClean (r : Removal) (k : Nat) : Prop :=
  (r.headersTry k).1 = .ok () ∧ (r.dataTry k).1 = .ok ()

/-- A round fails with a fault: that of the headers file, or else that of the data file. -/
def Blames (r : Removal) (k : Nat) (fault : IoFault) : Prop :=
  (r.headersTry k).1 = .error fault ∨
    (r.headersTry k).1 = .ok () ∧ (r.dataTry k).1 = .error fault

variable {r : Removal} {k : Nat}

/-- A round makes both tries, and a failure of the first comes first. -/
theorem removeOnce_eq (r : Removal) (k : Nat) :
    Extent.removeOnce (r.before k) r.extent (r.weather k) =
      ((r.headersTry k).1.bind fun _ => (r.dataTry k).1, (r.dataTry k).2) := by
  rw [Extent.removeOnce, dataTry, headersTry]
  generalize Extent.removeIfThere (r.before k) r.extent.headers (r.weather k).headers = first
  obtain ⟨headers | _, d⟩ := first <;> rfl

theorem before_succ (r : Removal) (k : Nat) : r.before (k + 1) = (r.dataTry k).2 := by
  rw [before, removeOnce_eq]

theorem removeOnce_of_isClean (h : r.IsClean k) :
    Extent.removeOnce (r.before k) r.extent (r.weather k) = (.ok (), r.before (k + 1)) := by
  rw [removeOnce_eq, before_succ, h.1, h.2]
  rfl

theorem removeOnce_of_blames {fault : IoFault} (h : r.Blames k fault) :
    Extent.removeOnce (r.before k) r.extent (r.weather k) = (.error fault, r.before (k + 1)) := by
  rw [removeOnce_eq, before_succ]
  obtain hheaders | ⟨hheaders, hdata⟩ := h
  · rw [hheaders]
    rfl
  · rw [hheaders, hdata]
    rfl

theorem exists_blames_of_not_isClean (h : ¬r.IsClean k) : ∃ fault, r.Blames k fault := by
  cases hheaders : (r.headersTry k).1 with
  | error fault => exact ⟨fault, Or.inl hheaders⟩
  | ok _ =>
      cases hdata : (r.dataTry k).1 with
      | error fault => exact ⟨fault, Or.inr ⟨hheaders, hdata⟩⟩
      | ok _ => exact absurd ⟨hheaders, hdata⟩ h

/-! ## Runs -/

/-- From round `n` on, a removal ends with the first round that succeeds. -/
theorem removeRounds_of_isClean {attempts left n : Nat} (hn : n + left + 1 = attempts)
    (hle : n ≤ k) (hlt : k < attempts) (hclean : r.IsClean k)
    (hfirst : ∀ j, n ≤ j → j < k → ¬r.IsClean j) :
    Extent.removeRounds r.extent attempts r.weather left (r.before n) =
      (.ok (), r.before (k + 1)) := by
  have hround : attempts - 1 - left = n := by omega
  induction left generalizing n with
  | zero =>
      obtain rfl : n = k := by omega
      unfold Extent.removeRounds
      rw [hround, removeOnce_of_isClean hclean]
  | succ left ih =>
      unfold Extent.removeRounds
      rw [hround]
      by_cases hnow : r.IsClean n
      · obtain rfl : n = k :=
          Nat.le_antisymm hle (Nat.le_of_not_lt fun hlt' => hfirst n (Nat.le_refl n) hlt' hnow)
        rw [removeOnce_of_isClean hclean]
      · obtain ⟨fault, hfault⟩ := exists_blames_of_not_isClean hnow
        have hne : n ≠ k := by
          rintro rfl
          exact hnow hclean
        rw [removeOnce_of_blames hfault]
        exact ih (by omega) (by omega) (fun j hj => hfirst j (by omega)) (by omega)

/-- From round `n` on, a removal with no round that succeeds ends with the failure of the last. -/
theorem removeRounds_of_not_isClean {attempts left n : Nat} (hn : n + left + 1 = attempts)
    (h : ∀ j, n ≤ j → j < attempts → ¬r.IsClean j) :
    ∃ fault, r.Blames (attempts - 1) fault ∧
      Extent.removeRounds r.extent attempts r.weather left (r.before n) =
        (.error (.deleteFailed attempts fault), r.before attempts) := by
  have hround : attempts - 1 - left = n := by omega
  obtain ⟨fault, hfault⟩ := exists_blames_of_not_isClean (h n (Nat.le_refl n) (by omega))
  induction left generalizing n fault with
  | zero =>
      obtain rfl : attempts = n + 1 := hn.symm
      refine ⟨fault, hfault, ?_⟩
      unfold Extent.removeRounds
      rw [hround, removeOnce_of_blames hfault]
  | succ left ih =>
      obtain ⟨next, hnext⟩ := exists_blames_of_not_isClean (h (n + 1) (by omega) (by omega))
      unfold Extent.removeRounds
      rw [hround, removeOnce_of_blames hfault]
      exact ih (by omega) (fun j hj => h j (by omega)) (by omega) next hnext

theorem run_of_isClean {attempts : Nat} (hlt : k < max attempts 1) (hclean : r.IsClean k)
    (hfirst : ∀ j < k, ¬r.IsClean j) : r.run attempts = (.ok (), r.before (k + 1)) :=
  removeRounds_of_isClean (by omega) (Nat.zero_le k) hlt hclean fun j _ => hfirst j

theorem run_of_not_isClean {attempts : Nat} (h : ∀ k < max attempts 1, ¬r.IsClean k) :
    ∃ fault, r.Blames (max attempts 1 - 1) fault ∧
      r.run attempts = (.error (.deleteFailed (max attempts 1) fault),
        r.before (max attempts 1)) :=
  removeRounds_of_not_isClean (n := 0) (by omega) fun j _ => h j

/-- Among the rounds that a removal has, one is the first to succeed, or none succeeds. -/
theorem exists_first_or_forall_not (r : Removal) (n : Nat) :
    (∃ k < n, r.IsClean k ∧ ∀ j < k, ¬r.IsClean j) ∨ ∀ k < n, ¬r.IsClean k := by
  classical
  by_cases hclean : ∃ k, k < n ∧ r.IsClean k
  · obtain ⟨hlt, hfirst⟩ := Nat.find_spec hclean
    refine Or.inl ⟨_, hlt, hfirst, fun j hj hclean' => ?_⟩
    exact Nat.find_min hclean hj ⟨Nat.lt_trans hj hlt, hclean'⟩
  · exact Or.inr fun k hk hclean' => hclean ⟨k, hk, hclean'⟩

/-! ## What a removal leaves -/

theorem headers_tries (r : Removal) (k : Nat) :
    Tries r.extent.headers (r.weather k).headers (r.before k) (r.headersTry k).1
      (r.headersTry k).2 :=
  Extent.tries_removeIfThere _ _ _

theorem data_tries (r : Removal) (k : Nat) :
    Tries r.extent.data (r.weather k).data (r.headersTry k).2 (r.dataTry k).1
      (r.before (k + 1)) :=
  r.before_succ k ▸ Extent.tries_removeIfThere _ _ _

theorem isFileOf_headers (r : Removal) : IsFileOf r.base r.stream r.extent.headers :=
  Extent.isFileOf_headers r.base r.stream

theorem isFileOf_data (r : Removal) : IsFileOf r.base r.stream r.extent.data :=
  Extent.isFileOf_data r.base r.stream

theorem lookup_data_headersTry (r : Removal) (k : Nat) :
    (r.headersTry k).2.lookup r.extent.data = (r.before k).lookup r.extent.data :=
  (r.headers_tries k).lookup_eq r.isFileOf_headers r.isFileOf_data
    (Extent.headers_ne_data r.base r.stream r.stream).symm

theorem lookup_headers_before_succ (r : Removal) (k : Nat) :
    (r.before (k + 1)).lookup r.extent.headers = (r.headersTry k).2.lookup r.extent.headers :=
  (r.data_tries k).lookup_eq r.isFileOf_data r.isFileOf_headers
    (Extent.headers_ne_data r.base r.stream r.stream)

/-- A file of the stream that is missing is missing after another round. -/
theorem lookup_before_succ {p : Path} (hp : IsFileOf r.base r.stream p)
    (h : (r.before k).lookup p = .error .notFound) :
    (r.before (k + 1)).lookup p = .error .notFound := by
  obtain rfl | rfl := hp
  · exact (r.lookup_headers_before_succ k).trans (((r.headers_tries k).missing h) ▸ h)
  · have hdata := (r.lookup_data_headersTry k).trans h
    exact ((r.data_tries k).missing hdata) ▸ hdata

theorem lookup_before_of_le {p : Path} {j : Nat} (hp : IsFileOf r.base r.stream p) (hjk : j ≤ k)
    (h : (r.before j).lookup p = .error .notFound) :
    (r.before k).lookup p = .error .notFound := by
  induction k, hjk using Nat.le_induction with
  | base => exact h
  | succ k _ ih => exact lookup_before_succ hp ih

/-- A round whose try at a file succeeds leaves none there. -/
theorem lookup_headers_of_ok (h : (r.headersTry k).1 = .ok ()) :
    (r.before (k + 1)).lookup r.extent.headers = .error .notFound :=
  (r.lookup_headers_before_succ k).trans ((r.headers_tries k).gone h)

theorem lookup_of_isClean {p : Path} (hp : IsFileOf r.base r.stream p) (h : r.IsClean k) :
    (r.before (k + 1)).lookup p = .error .notFound := by
  obtain rfl | rfl := hp
  · exact lookup_headers_of_ok h.1
  · exact (r.data_tries k).gone h.2

/-- No round changes a row that is not of one of the two files. -/
theorem agreeOff_before (r : Removal) (k : Nat) :
    AgreeOff (IsFileOf r.base r.stream) r.disk (r.before k) := by
  induction k with
  | zero => exact fun _ _ => rfl
  | succ k ih =>
      have hheaders : AgreeOff (IsFileOf r.base r.stream) (r.before k) (r.headersTry k).2 :=
        (r.headers_tries k).elsewhere.mono fun q hq => Or.inl hq
      have hdata : AgreeOff (IsFileOf r.base r.stream) (r.headersTry k).2 (r.before (k + 1)) :=
        (r.data_tries k).elsewhere.mono fun q hq => Or.inr hq
      exact ih.trans (hheaders.trans hdata)

/-- No round changes what the files of other streams lead to. -/
theorem lookup_before_of_ne {s : StreamId} {p : Path} (hs : s ≠ r.stream)
    (hp : IsFileOf r.base s p) (k : Nat) : (r.before k).lookup p = r.disk.lookup p := by
  apply hp.lookup_eq (r.agreeOff_before k)
  · intro q hq
    exact ⟨r.stream, hq⟩
  · intro hfile
    exact hs (hp.eq hfile)

/-! ## Removing again -/

/-- A removal that starts without the files changes nothing. -/
theorem before_eq_of_missing
    (h : ∀ p, IsFileOf r.base r.stream p → r.disk.lookup p = .error .notFound) (k : Nat) :
    (r.headersTry k).2 = r.disk ∧ r.before k = r.disk := by
  have hbefore : r.before k = r.disk := by
    induction k with
    | zero => rfl
    | succ k ih =>
        have hheaders := (r.headers_tries k).missing (ih ▸ h _ r.isFileOf_headers)
        have hdata := (r.data_tries k).missing (hheaders.trans ih ▸ h _ r.isFileOf_data)
        exact hdata.trans (hheaders.trans ih)
  exact ⟨((r.headers_tries k).missing (hbefore ▸ h _ r.isFileOf_headers)).trans hbefore, hbefore⟩

/-- Where the files are missing, a round succeeds. -/
theorem isClean_of_missing
    (h : ∀ p, IsFileOf r.base r.stream p → r.disk.lookup p = .error .notFound) (k : Nat) :
    r.IsClean k := by
  obtain ⟨hheaders, hbefore⟩ := before_eq_of_missing h k
  constructor
  · apply (r.headers_tries k).ok_iff.mpr
    rw [hbefore]
    exact Or.inl (h _ r.isFileOf_headers)
  · apply (r.data_tries k).ok_iff.mpr
    rw [hheaders]
    exact Or.inl (h _ r.isFileOf_data)

theorem run_of_missing
    (h : ∀ p, IsFileOf r.base r.stream p → r.disk.lookup p = .error .notFound) (attempts : Nat) :
    r.run attempts = (.ok (), r.disk) := by
  have hnone : ∀ j < 0, ¬r.IsClean j := fun _ hj => absurd hj (Nat.not_lt_zero _)
  rw [run_of_isClean (by omega) (isClean_of_missing h 0) hnone, (before_eq_of_missing h 1).2]

/-- A removal that succeeds leaves neither file. -/
theorem lookup_of_run_ok {attempts : Nat} (h : (r.run attempts).1 = .ok ()) {p : Path}
    (hp : IsFileOf r.base r.stream p) : (r.run attempts).2.lookup p = .error .notFound := by
  obtain ⟨k, hlt, hclean, hfirst⟩ | hnone := r.exists_first_or_forall_not (max attempts 1)
  · rw [run_of_isClean hlt hclean hfirst]
    exact lookup_of_isClean hp hclean
  · obtain ⟨fault, -, hrun⟩ := run_of_not_isClean hnone
    rw [hrun] at h
    cases h

/-! ## The rounds that are made -/

/-- No round before this one succeeds, so a removal that has enough rounds makes it. -/
def Reaches (r : Removal) (k : Nat) : Prop := ∀ j < k, ¬r.IsClean j

theorem Reaches.succ (h : r.Reaches k) (hclean : ¬r.IsClean k) : r.Reaches (k + 1) := by
  intro j hj
  rcases Nat.lt_succ_iff_lt_or_eq.mp hj with hj | rfl
  · exact h j hj
  · exact hclean

/-- What would stand in the way of rounds that are not made makes no difference. -/
theorem removeRounds_congr {weather : Nat → Interference} {attempts left n : Nat}
    (hn : n + left + 1 = attempts) (hreaches : r.Reaches n)
    (h : ∀ k < attempts, r.Reaches k → weather k = r.weather k) :
    Extent.removeRounds r.extent attempts weather left (r.before n) =
      Extent.removeRounds r.extent attempts r.weather left (r.before n) := by
  have hround : attempts - 1 - left = n := by omega
  have hnow := h n (by omega) hreaches
  induction left generalizing n with
  | zero =>
      unfold Extent.removeRounds
      rw [hround, hnow]
      obtain ⟨_ | _, _⟩ := Extent.removeOnce (r.before n) r.extent (r.weather n) <;> rfl
  | succ left ih =>
      unfold Extent.removeRounds
      rw [hround, hnow]
      by_cases hclean : r.IsClean n
      · rw [removeOnce_of_isClean hclean]
      · obtain ⟨fault, hfault⟩ := exists_blames_of_not_isClean hclean
        have hnext := hreaches.succ hclean
        rw [removeOnce_of_blames hfault]
        exact ih (by omega) hnext (by omega) (h (n + 1) (by omega) hnext)

/-! ## Removals are exact -/

/-- What a removal with so many attempts does.  Every round tries both files; the first round in
which neither try fails ends the removal, which leaves neither file; without one it reports the
failure of its last round; and what is missing stays missing, and other files stay as they are. -/
structure IsExact (r : Removal) (attempts : Nat) : Prop where
  headers_tries : ∀ k, Tries r.extent.headers (r.weather k).headers (r.before k)
    (r.headersTry k).1 (r.headersTry k).2
  data_tries : ∀ k, Tries r.extent.data (r.weather k).data (r.headersTry k).2
    (r.dataTry k).1 (r.before (k + 1))
  /-- The first round that succeeds is the last one. -/
  ok : ∀ k < max attempts 1, r.IsClean k → r.Reaches k →
    r.run attempts = (.ok (), r.before (k + 1))
  /-- Of two failures in the last round the first is reported. -/
  failed : (∀ k < max attempts 1, ¬r.IsClean k) →
    ∃ fault, r.Blames (max attempts 1 - 1) fault ∧
      r.run attempts = (.error (.deleteFailed (max attempts 1) fault),
        r.before (max attempts 1))
  /-- Only what stands in the way of rounds that are made counts. -/
  rounds : ∀ weather : Nat → Interference,
    (∀ k < max attempts 1, r.Reaches k → weather k = r.weather k) →
      { r with weather }.run attempts = r.run attempts
  gone : (r.run attempts).1 = .ok () →
    (r.run attempts).2.exists? r.extent.headers = .ok false ∧
      (r.run attempts).2.exists? r.extent.data = .ok false
  headers_removed : ∀ j k, j < k → (r.headersTry j).1 = .ok () →
    (r.before k).lookup r.extent.headers = .error .notFound
  data_removed : ∀ j k, j < k → (r.dataTry j).1 = .ok () →
    (r.before k).lookup r.extent.data = .error .notFound
  others_kept : ∀ k p, ¬IsFileOf r.base r.stream p → (r.before k).node? p = r.disk.node? p
  streams_kept : ∀ k s p, s ≠ r.stream → IsFileOf r.base s p →
    (r.before k).lookup p = r.disk.lookup p
  /-- After a success another removal succeeds, whatever may stand in its way. -/
  again : (r.run attempts).1 = .ok () → ∀ (attempts' : Nat) (weather : Nat → Interference),
    { r with disk := (r.run attempts).2, weather }.run attempts' = (.ok (), (r.run attempts).2)

theorem isExact (r : Removal) (attempts : Nat) : r.IsExact attempts where
  headers_tries := r.headers_tries
  data_tries := r.data_tries
  ok _ := run_of_isClean
  failed := run_of_not_isClean
  rounds weather h :=
    removeRounds_congr (n := 0) (by omega) (fun _ hj => absurd hj (Nat.not_lt_zero _)) h
  gone h := ⟨Disk.exists?_eq_false (lookup_of_run_ok h r.isFileOf_headers),
    Disk.exists?_eq_false (lookup_of_run_ok h r.isFileOf_data)⟩
  headers_removed _ _ hjk h := lookup_before_of_le r.isFileOf_headers hjk (lookup_headers_of_ok h)
  data_removed j _ hjk h := lookup_before_of_le r.isFileOf_data hjk ((r.data_tries j).gone h)
  others_kept k := r.agreeOff_before k
  streams_kept k _ _ hs hp := lookup_before_of_ne hs hp k
  again h attempts' weather :=
    run_of_missing (r := { r with disk := (r.run attempts).2, weather })
      (fun _ hp => lookup_of_run_ok h hp) attempts'

end Removal

end StreamStore
