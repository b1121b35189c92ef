import StreamStore.Proofs.Storage.Directories
import StreamStore.Proofs.Stream.Grammar

/-!
# Where streams stand

A stream type has the grammar of a plain name, and so have the names of a stream's two files.  So
each of the two paths goes two steps down from the base directory and nowhere else, whether it is a
list of names or a text.  No two streams share a file, and no stream has one file as both of its
own.
-/

namespace StreamStore

/-! ## Plain names -/

/-- A name that leads one step down from a directory, and nowhere else. -/
structure IsPlainName (name : String) : Prop where
  ne_empty : name ≠ ""
  ne_dot : name ≠ "."
  ne_dotDot : name ≠ ".."
  slash_notMem : '/' ∉ name.toList
  isName : Disk.isName name = true

namespace StreamType

theorem length_encode_of_allows {cs : List Char} (h : ∀ c ∈ cs, allows c = true) :
    (Utf8.encode cs).length = cs.length := by
  induction cs with
  | nil => rfl
  | cons c cs ih =>
      obtain ⟨hc, hcs⟩ := List.forall_mem_cons.mp h
      have hascii := allows_iff_toNat.mp hc
      rw [Utf8.encode, List.flatMap_cons, ← Utf8.encode, List.length_append, ih hcs,
        Utf8.encodeChar_of_lt (by omega), List.length_singleton, List.length_cons, Nat.add_comm]

end StreamType

/-- What is written like a stream type is a plain name, unless it is too long for one. -/
theorem isPlainName_of_allows {name : String} (hlength : name.toList.length ≤ Disk.maxName)
    (hne : name ≠ "") (hdot : name.toList.head? ≠ some '.')
    (hallowed : ∀ c ∈ name.toList, StreamType.allows c = true) : IsPlainName name where
  ne_empty := hne
  ne_dot := by
    rintro rfl
    exact hdot (by decide)
  ne_dotDot := by
    rintro rfl
    exact hdot (by decide)
  slash_notMem hmem := absurd (hallowed '/' hmem) (by decide)
  isName := by
    rw [Disk.isName, Bool.and_eq_true, decide_eq_true_eq, Bool.not_eq_true',
      List.contains_eq_mem, decide_eq_false_iff_not, ← Utf8.length_encode_toList,
      StreamType.length_encode_of_allows hallowed]
    exact ⟨hlength, fun hmem => absurd (hallowed '\x00' hmem) (by decide)⟩

theorem StreamType.isPlainName (t : StreamType) : IsPlainName t.text := by
  obtain ⟨hne, hle, hdot, hallowed⟩ := StreamType.fault?_eq_none_iff.mp t.valid
  rw [← Utf8.length_encode_toList, length_encode_of_allows hallowed] at hle
  exact isPlainName_of_allows (Nat.le_trans hle (by decide)) hne hdot hallowed

namespace Hex

theorem allows_digit {n : Nat} (h : n < 16) :
    StreamType.allows (digit n) = true ∧ digit n ≠ '.' := by
  have hall : ∀ m : Fin 16, StreamType.allows (digit m.val) = true ∧ digit m.val ≠ '.' := by
    decide
  exact hall ⟨n, h⟩

/-- Digits are among the characters of stream types, and none is a full stop. -/
theorem allows_of_mem_encode {width n : Nat} {c : Char} (hc : c ∈ encode width n) :
    StreamType.allows c = true ∧ c ≠ '.' := by
  induction width generalizing n with
  | zero => cases hc
  | succ width ih =>
      rw [encode, List.mem_append, List.mem_singleton] at hc
      rcases hc with hc | rfl
      · exact ih hc
      · exact allows_digit (Nat.mod_lt _ (by decide))

end Hex

namespace Extent

/-- The digits of a key and a suffix like those of stream files are a plain name. -/
theorem isPlainName_of_digits {name suffix : String} {u : Uuid}
    (hname : name.toList = u.digits ++ suffix.toList)
    (hsuffix : suffix.toList.all StreamType.allows = true)
    (hshort : suffix.toList.length ≤ 64) : IsPlainName name := by
  have hdigits : ∀ c ∈ u.digits, StreamType.allows c = true ∧ c ≠ '.' := by
    intro c hc
    exact Hex.allows_of_mem_encode hc
  obtain ⟨first, rest, hfirst⟩ := List.exists_cons_of_length_pos
    (Nat.lt_of_lt_of_eq (by decide : 0 < 32) u.length_digits.symm)
  apply isPlainName_of_allows
  · rw [hname, List.length_append, u.length_digits, Disk.maxName]
    omega
  · rintro rfl
    rw [hfirst] at hname
    cases hname
  · rw [hname, hfirst, List.cons_append, List.head?_cons, Ne, Option.some_inj]
    exact (hdigits first (hfirst ▸ List.mem_cons_self)).2
  · intro c hc
    rw [hname, List.mem_append] at hc
    rcases hc with hc | hc
    · exact (hdigits c hc).1
    · exact List.all_eq_true.mp hsuffix c hc

theorem isPlainName_headersName (s : StreamId) : IsPlainName (headersName s) :=
  isPlainName_of_digits (toList_headersName s) (by decide) (by decide)

theorem isPlainName_dataName (s : StreamId) : IsPlainName (dataName s) :=
  isPlainName_of_digits (toList_dataName s) (by decide) (by decide)

/-- No data file is taken for a headers file. -/
theorem keyOfHeadersName?_dataName (s : StreamId) : keyOfHeadersName? (dataName s) = none := by
  have hdrop : (dataName s).toList.drop 32 = dataSuffix.toList := by
    rw [toList_dataName, List.drop_left' s.key.length_digits]
  rw [keyOfHeadersName?]
  simp only [hdrop, headersSuffix_ne_dataSuffix.symm, false_and, if_false]

/-! ## Paths as texts -/

/-- What comes between a path and a name added to it. -/
def separator (path : String) : String :=
  if path.isEmpty ∨ path.toList.getLast? = some '/' then "" else "/"

theorem joinText_eq (path name : String) :
    joinText path name = path ++ separator path ++ name := by
  rw [joinText, separator]
  by_cases hempty : path.isEmpty = true
  · rw [if_pos hempty, if_pos (Or.inl hempty), String.isEmpty_iff.mp hempty, String.empty_append,
      String.empty_append]
  · by_cases hslash : path.toList.getLast? = some '/'
    · rw [if_neg hempty, if_pos hslash, if_pos (Or.inr hslash), String.append_empty]
    · rw [if_neg hempty, if_neg hslash, if_neg (not_or.mpr ⟨hempty, hslash⟩)]

/-- A slash follows a plain name, whatever stands before it. -/
theorem separator_append {name : String} (h : IsPlainName name) (path : String) :
    separator (path ++ name) = "/" := by
  have hlist : name.toList ≠ [] := by
    rw [Ne, String.toList_eq_nil_iff]
    exact h.ne_empty
  have hempty : (path ++ name).isEmpty ≠ true := by
    rw [Ne, String.isEmpty_iff, ← String.toList_eq_nil_iff, String.toList_append,
      List.append_eq_nil_iff]
    exact fun hboth => hlist hboth.2
  have hslash : (path ++ name).toList.getLast? ≠ some '/' := by
    rw [String.toList_append, List.getLast?_append_of_ne_nil _ hlist]
    exact fun hlast => h.slash_notMem (List.mem_of_getLast? hlast)
  exact if_neg (not_or.mpr ⟨hempty, hslash⟩)

theorem pathText_eq (root : String) (s : StreamId) (name : String) :
    pathText root s name = root ++ separator root ++ s.type.text ++ "/" ++ name := by
  rw [pathText, joinText_eq _ name, joinText_eq root, separator_append s.type.isPlainName]

/-- A text leads to the type and the name that it was written for. -/
theorem pathText_inj {root : String} {a b : StreamId} {m n : String} (hm : IsPlainName m)
    (h : pathText root a m = pathText root b n) : a.type = b.type ∧ m = n := by
  rw [pathText_eq, pathText_eq] at h
  have hlist := congrArg String.toList h
  simp only [String.toList_append, List.append_assoc, List.append_cancel_left_eq] at hlist
  obtain ⟨htype, -, hname⟩ := (List.append_cons_inj_of_notMem a.type.isPlainName.slash_notMem
    hm.slash_notMem).mp hlist
  exact ⟨StreamType.ext (String.toList_inj.mp htype), String.toList_inj.mp hname⟩

/-! ## Streams and their files -/

/-- The two paths of a stream go two plain steps down from the base directory, first to the type;
the name of the headers file gives back the key, that of the data file gives nothing. -/
structure StandsBelow (base : Path) (root : String) (s : StreamId) : Prop where
  headers_eq : (ofStream base s).headers = base ++ [s.type.text, headersName s]
  data_eq : (ofStream base s).data = base ++ [s.type.text, dataName s]
  type_plain : IsPlainName s.type.text
  headers_plain : IsPlainName (headersName s)
  data_plain : IsPlainName (dataName s)
  text_eq : ∀ name, pathText root s name = root ++ separator root ++ s.type.text ++ "/" ++ name
  headers_key : keyOfHeadersName? (headersName s) = some s.key
  data_key : keyOfHeadersName? (dataName s) = none

theorem standsBelow (base : Path) (root : String) (s : StreamId) : StandsBelow base root s where
  headers_eq := List.append_assoc base _ _
  data_eq := List.append_assoc base _ _
  type_plain := s.type.isPlainName
  headers_plain := isPlainName_headersName s
  data_plain := isPlainName_dataName s
  text_eq := pathText_eq root s
  headers_key := keyOfHeadersName?_headersName s
  data_key := keyOfHeadersName?_dataName s

/-- Paths of two streams are the same only where the streams are and the kinds of file are. -/
structure StandApart (base : Path) (root : String) (a b : StreamId) : Prop where
  headers_iff : (ofStream base a).headers = (ofStream base b).headers ↔ a = b
  data_iff : (ofStream base a).data = (ofStream base b).data ↔ a = b
  headers_ne_data : (ofStream base a).headers ≠ (ofStream base b).data
  headersText_iff : pathText root a (headersName a) = pathText root b (headersName b) ↔ a = b
  dataText_iff : pathText root a (dataName a) = pathText root b (dataName b) ↔ a = b
  headersText_ne_dataText : pathText root a (headersName a) ≠ pathText root b (dataName b)

theorem standApart (base : Path) (root : String) (a b : StreamId) : StandApart base root a b where
  headers_iff := ⟨headers_injective, fun h => h ▸ rfl⟩
  data_iff := ⟨data_injective, fun h => h ▸ rfl⟩
  headers_ne_data := Extent.headers_ne_data base a b
  headersText_iff := by
    refine ⟨fun h => ?_, fun h => h ▸ rfl⟩
    obtain ⟨htype, hname⟩ := pathText_inj (isPlainName_headersName a) h
    have hpath : (ofStream base a).headers = (ofStream base b).headers := by
      rw [ofStream, ofStream, htype, hname]
    exact headers_injective hpath
  dataText_iff := by
    refine ⟨fun h => ?_, fun h => h ▸ rfl⟩
    obtain ⟨htype, hname⟩ := pathText_inj (isPlainName_dataName a) h
    have hpath : (ofStream base a).data = (ofStream base b).data := by
      rw [ofStream, ofStream, htype, hname]
    exact data_injective hpath
  headersText_ne_dataText h :=
    headersName_ne_dataName a b (pathText_inj (isPlainName_headersName a) h).2

/-- Just the texts with the grammar of a type are taken as one; the files of streams of such types
stand below the base directory, no two of them at one place. -/
theorem stand_below_apart (text : String) (base : Path) (root : String) (a b : StreamId) :
    ((∃ t, StreamType.ofString text = .ok t) ↔
        StreamType.IsTypeName (Utf8.encode text.toList)) ∧
      (∀ t, StreamType.ofString text = .ok t → t.text = text) ∧
      StandsBelow base root a ∧ StandApart base root a b :=
  ⟨StreamType.exists_ofString_iff, fun _ => StreamType.ofString_eq_ok_iff.mp,
    standsBelow base root a, standApart base root a b⟩

end Extent

end StreamStore
