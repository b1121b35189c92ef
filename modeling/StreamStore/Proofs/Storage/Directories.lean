import Mathlib.Data.List.Induction
import StreamStore.Proofs.Cache.Contents
import StreamStore.Proofs.Storage.Tree

/-!
# Names in directories

What a directory lists is what stands below it, each name once.  The name of a headers
file is read with digits of either case and written with small ones, so a name that is
read as a stream's is the one the stream is looked up under exactly where it has no
capital digit.
-/

namespace StreamStore

/-! ## Digits -/

namespace Hex

/-- A digit that is read but never written. -/
def IsCapital (c : Char) : Prop := 'A' ≤ c ∧ c ≤ 'F'

instance (c : Char) : Decidable (IsCapital c) :=
  inferInstanceAs (Decidable ('A' ≤ c ∧ c ≤ 'F'))

theorem not_isCapital_digit {n : Nat} (h : n < 16) : ¬IsCapital (digit n) := by
  have hall : ∀ m : Fin 16, ¬IsCapital (digit m.val) := by decide
  exact hall ⟨n, h⟩

theorem value?_lt {c : Char} {v : Nat} (h : value? c = some v) : v < 16 := by
  simp only [value?, Char.le_def, UInt32.le_iff_toNat_le] at h
  change (if 48 ≤ c.toNat ∧ c.toNat ≤ 57 then some (c.toNat - 48)
    else if 97 ≤ c.toNat ∧ c.toNat ≤ 102 then some (c.toNat - 87)
    else if 65 ≤ c.toNat ∧ c.toNat ≤ 70 then some (c.toNat - 55) else none) = _ at h
  split_ifs at h <;> cases h <;> omega

/-- A digit is written as it was read unless it is a capital. -/
theorem digit_value {c : Char} {v : Nat} (h : value? c = some v) :
    digit v = c ↔ ¬IsCapital c := by
  constructor
  · rintro rfl
    exact not_isCapital_digit (value?_lt h)
  · intro hsmall
    simp only [value?, Char.le_def, UInt32.le_iff_toNat_le] at h
    simp only [IsCapital, Char.le_def, UInt32.le_iff_toNat_le] at hsmall
    change (if 48 ≤ c.toNat ∧ c.toNat ≤ 57 then some (c.toNat - 48)
      else if 97 ≤ c.toNat ∧ c.toNat ≤ 102 then some (c.toNat - 87)
      else if 65 ≤ c.toNat ∧ c.toNat ≤ 70 then some (c.toNat - 55) else none) = _ at h
    split_ifs at h with hdecimal hletter hcapital
    · cases h
      rw [digit, if_pos (by omega), show 48 + (c.toNat - 48) = c.toNat by omega,
        Char.ofNat_toNat]
    · cases h
      rw [digit, if_neg (by omega), show 87 + (c.toNat - 87) = c.toNat by omega,
        Char.ofNat_toNat]
    · exact absurd hcapital hsmall

theorem decode?_append_singleton (cs : List Char) (c : Char) :
    decode? (cs ++ [c]) =
      (decode? cs).bind fun n => (value? c).bind fun v => some (16 * n + v) := by
  rw [decode?, decodeFrom?_append]
  rfl

/-- Digits that are read and written again come back as they were where none is a
capital. -/
theorem encode_eq_iff {cs : List Char} {n : Nat} (h : decode? cs = some n) :
    encode cs.length n = cs ↔ ∀ c ∈ cs, ¬IsCapital c := by
  induction cs using List.reverseRecOn generalizing n with
  | nil => exact iff_of_true rfl (List.forall_mem_nil _)
  | append_singleton cs c ih =>
      rw [decode?_append_singleton] at h
      obtain ⟨m, hm, h⟩ := Option.bind_eq_some_iff.mp h
      obtain ⟨v, hv, h⟩ := Option.bind_eq_some_iff.mp h
      cases h
      have hlt := value?_lt hv
      rw [List.length_append, List.length_singleton, encode,
        show (16 * m + v) / 16 = m by omega, show (16 * m + v) % 16 = v by omega,
        List.append_singleton_inj, ih hm, digit_value hv]
      simp only [List.forall_mem_append, List.forall_mem_singleton]

theorem decode?_isSome_iff (cs : List Char) :
    (decode? cs).isSome ↔ cs.all isDigit := by
  induction cs using List.reverseRecOn with
  | nil => exact iff_of_true rfl rfl
  | append_singleton cs c ih =>
      rw [decode?_append_singleton, List.all_append, Bool.and_eq_true, ← ih, List.all_cons,
        List.all_nil, Bool.and_true, isDigit]
      cases decode? cs <;> cases value? c <;> simp

theorem decode?_lt {cs : List Char} {n : Nat} (h : decode? cs = some n) :
    n < 1 <<< (4 * cs.length) := by
  induction cs using List.reverseRecOn generalizing n with
  | nil =>
      cases h
      decide
  | append_singleton cs c ih =>
      rw [decode?_append_singleton] at h
      obtain ⟨m, hm, h⟩ := Option.bind_eq_some_iff.mp h
      obtain ⟨v, hv, h⟩ := Option.bind_eq_some_iff.mp h
      cases h
      have hlt := value?_lt hv
      have hm' := ih hm
      rw [Nat.shiftLeft_eq, Nat.one_mul] at hm' ⊢
      rw [List.length_append, List.length_singleton, Nat.mul_add, Nat.pow_add]
      omega

end Hex

/-! ## Names of headers files -/

theorem Uuid.toNat_ofNat {n : Nat} (h : n < 1 <<< 128) : (Uuid.ofNat n).toNat = n :=
  Nat.mod_eq_of_lt h

namespace Extent

theorem keyOfHeadersName?_eq_some {name : String} {key : Uuid}
    (h : keyOfHeadersName? name = some key) :
    name.toList.drop 32 = headersSuffix.toList ∧ (name.toList.take 32).length = 32 ∧
      Hex.decode? (name.toList.take 32) = some key.toNat := by
  rw [keyOfHeadersName?] at h
  split_ifs at h with hname
  rw [Uuid.ofDigits?] at h
  split_ifs at h with hlength
  obtain ⟨n, hn, rfl⟩ := Option.map_eq_some_iff.mp h
  have hlt := Hex.decode?_lt hn
  rw [hlength] at hlt
  rw [Uuid.toNat_ofNat hlt]
  exact ⟨hname.1, hlength, hn⟩

/-- The name that a stream's headers file is written under is read as the stream's. -/
theorem keyOfHeadersName?_headersName (s : StreamId) :
    keyOfHeadersName? (headersName s) = some s.key := by
  have htake : (headersName s).toList.take 32 = s.key.digits := by
    rw [toList_headersName, List.take_left' s.key.length_digits]
  have hdrop : (headersName s).toList.drop 32 = headersSuffix.toList := by
    rw [toList_headersName, List.drop_left' s.key.length_digits]
  have hdigits : s.key.digits.all Hex.isDigit := by
    have hdecode : Hex.decode? (Hex.encode 32 s.key.toNat) = some s.key.toNat :=
      Hex.decode?_encode s.key.toNat_lt
    rw [← Hex.decode?_isSome_iff, Uuid.digits, hdecode]
    rfl
  rw [keyOfHeadersName?]
  simp only [htake, hdrop, hdigits, and_self, if_true, Uuid.ofDigits?_digits]

/-- Of the names that are read as a stream's, its headers file has the one without
capital digits. -/
theorem eq_headersName_iff {name : String} {key : Uuid} (t : StreamType)
    (h : keyOfHeadersName? name = some key) :
    name = headersName ⟨key, t⟩ ↔ ∀ c ∈ name.toList.take 32, ¬Hex.IsCapital c := by
  obtain ⟨hdrop, hlength, hdecode⟩ := keyOfHeadersName?_eq_some h
  rw [← Hex.encode_eq_iff hdecode, hlength, ← String.toList_inj, toList_headersName, ← hdrop,
    Uuid.digits]
  constructor
  · intro heq
    have htake := congrArg (List.take 32) heq
    rwa [List.take_left' (Hex.length_encode ..), eq_comm] at htake
  · intro heq
    rw [heq, List.take_append_drop]

end Extent

/-! ## What directories list -/

namespace Disk

variable {d : Disk} {p : Path} {name : String} {node : Node} {entries : List (String × Node)}

theorem lookup_append_singleton_of_error {fault : DiskFault} (h : d.lookup p = .error fault)
    (name : String) : d.lookup (p ++ [name]) = .error fault := by
  rw [lookup] at h
  split at h
  next hobstacle =>
    cases h
    rw [lookup, obstacle?_append_singleton, hobstacle]
    rfl
  next hobstacle =>
    split at h
    next hnode =>
      cases h
      rw [lookup, obstacle?_append_singleton, hobstacle, hnode]
      rfl
    · cases h

theorem lookup_append_singleton_of_file {content : Bytes} (h : d.lookup p = .ok (.file content))
    (name : String) : d.lookup (p ++ [name]) = .error .notDirectory := by
  rw [lookup] at h
  split at h
  · cases h
  next hobstacle =>
    split at h
    · cases h
    next node hnode =>
      cases h
      rw [lookup, obstacle?_append_singleton, hobstacle, hnode]
      rfl

/-- A path leads to what stands at it in a directory. -/
theorem lookup_append_singleton_eq_ok_iff :
    d.lookup (p ++ [name]) = .ok node ↔
      d.lookup p = .ok .directory ∧ d.node? (p ++ [name]) = some node := by
  cases hp : d.lookup p with
  | error fault =>
      rw [lookup_append_singleton_of_error hp]
      simp
  | ok above =>
      cases above with
      | file content =>
          rw [lookup_append_singleton_of_file hp]
          simp
      | directory =>
          rw [lookup_append_singleton_of_directory hp]
          cases d.node? (p ++ [name]) <;> simp

theorem exists?_eq_true_iff : d.exists? p = .ok true ↔ ∃ node, d.lookup p = .ok node := by
  rw [exists?]
  cases d.lookup p with
  | error fault => cases fault <;> simp
  | ok node => simp

theorem lookup_of_entries (h : d.entries p = .ok entries) : d.lookup p = .ok .directory := by
  rw [Disk.entries] at h
  split at h
  next hp => exact hp
  · cases h
  · cases h

theorem lookup_of_entries_error (h : d.entries p = .error .notFound) :
    d.lookup p = .error .notFound := by
  rw [Disk.entries] at h
  split at h
  · cases h
  · cases h
  next fault hp =>
    cases h
    exact hp

/-- The row of a path as an entry of a directory. -/
def asEntry (p : Path) (row : Path × Node) : Option (String × Node) :=
  match row.1.getLast? with
  | some name => if row.1.dropLast = p then some (name, row.2) else none
  | none => none

theorem asEntry_eq_some_iff {row : Path × Node} :
    asEntry p row = some (name, node) ↔ row = (p ++ [name], node) := by
  obtain ⟨q, node'⟩ := row
  rw [asEntry]
  constructor
  · intro h
    split at h
    next last hlast =>
      obtain ⟨directory, rfl⟩ := List.getLast?_eq_some_iff.mp hlast
      rw [List.dropLast_concat] at h
      split_ifs at h with hp
      cases h
      rw [hp]
    · cases h
  · rintro ⟨⟩
    simp

theorem entries_eq (h : d.lookup p = .ok .directory) :
    d.entries p = .ok (d.nodes.rows.filterMap (asEntry p)) := by
  rw [entries, h]
  rfl

theorem mem_entries_iff (h : d.entries p = .ok entries) :
    (name, node) ∈ entries ↔ (p ++ [name], node) ∈ d.nodes.rows := by
  rw [entries_eq (lookup_of_entries h)] at h
  cases h
  simp only [List.mem_filterMap, asEntry_eq_some_iff, exists_eq_right]

theorem node?_append_singleton (d : Disk) (p : Path) (name : String) :
    d.node? (p ++ [name]) = d.nodes.find? (p ++ [name]) := by
  rw [node?, if_neg (List.append_ne_nil_of_right_ne_nil p (List.cons_ne_nil name []))]

/-- What stands below a directory is listed. -/
theorem mem_entries_of_node? (h : d.entries p = .ok entries)
    (hnode : d.node? (p ++ [name]) = some node) : (name, node) ∈ entries := by
  rw [node?_append_singleton] at hnode
  exact (mem_entries_iff h).mpr (Table.mem_rows_of_find? hnode)

/-- Every name that a directory lists leads to something. -/
theorem exists?_of_mem_entries (h : d.entries p = .ok entries) (hmem : (name, node) ∈ entries) :
    d.exists? (p ++ [name]) = .ok true := by
  have hsome : d.nodes.find? (p ++ [name]) ≠ none := by
    rw [Ne, Table.find?_eq_none_iff, not_not]
    exact List.mem_map_of_mem ((mem_entries_iff h).mp hmem)
  obtain ⟨node', hnode⟩ := Option.ne_none_iff_exists'.mp hsome
  rw [← node?_append_singleton] at hnode
  exact exists?_eq_true_iff.mpr
    ⟨node', lookup_append_singleton_eq_ok_iff.mpr ⟨lookup_of_entries h, hnode⟩⟩

theorem exists_mem_entries_iff (h : d.entries p = .ok entries) (name : String) :
    (∃ node, (name, node) ∈ entries) ↔ d.exists? (p ++ [name]) = .ok true := by
  constructor
  · rintro ⟨node, hmem⟩
    exact exists?_of_mem_entries h hmem
  · intro hexists
    obtain ⟨node, hlookup⟩ := exists?_eq_true_iff.mp hexists
    exact ⟨node, mem_entries_of_node? h (lookup_append_singleton_eq_ok_iff.mp hlookup).2⟩

/-- A directory lists no name twice. -/
theorem names_pairwise_ne (hproper : d.nodes.Proper) (h : d.entries p = .ok entries) :
    entries.Pairwise fun entry entry' => entry.1 ≠ entry'.1 := by
  rw [entries_eq (lookup_of_entries h)] at h
  cases h
  rw [List.pairwise_filterMap]
  refine (List.pairwise_map.mp hproper).imp fun {row row'} hne => ?_
  rintro ⟨name, node⟩ hentry ⟨name', node'⟩ hentry' rfl
  rw [asEntry_eq_some_iff] at hentry hentry'
  rw [hentry, hentry'] at hne
  exact hne rfl

/-! ## One tree, gone through in two ways -/

variable {d' : Disk}

theorem lookup_eq_of_node? (hsame : ∀ q, d.node? q = d'.node? q) (p : Path) :
    d.lookup p = d'.lookup p := by
  simp only [lookup, obstacle?, hsame]

theorem mem_entries_iff_node? (hproper : d.nodes.Proper) (h : d.entries p = .ok entries) :
    (name, node) ∈ entries ↔ d.node? (p ++ [name]) = some node := by
  refine ⟨fun hmem => ?_, mem_entries_of_node? h⟩
  rw [node?_append_singleton]
  exact Table.find?_of_mem_rows hproper ((mem_entries_iff h).mp hmem)

/-- Disks with the same tree list the same, perhaps in another order. -/
theorem exists_entries_perm (hproper : d.nodes.Proper) (hproper' : d'.nodes.Proper)
    (hsame : ∀ q, d.node? q = d'.node? q) (h : d.entries p = .ok entries) :
    ∃ entries', d'.entries p = .ok entries' ∧ entries.Perm entries' := by
  have hlookup : d'.lookup p = .ok .directory := by
    rw [← lookup_eq_of_node? hsame, lookup_of_entries h]
  have h' := entries_eq hlookup
  refine ⟨_, h', (List.perm_ext_iff_of_nodup ?_ ?_).mpr ?_⟩
  · exact (names_pairwise_ne hproper h).imp fun hne heq => hne (congrArg Prod.fst heq)
  · exact (names_pairwise_ne hproper' h').imp fun hne heq => hne (congrArg Prod.fst heq)
  · rintro ⟨name, node⟩
    rw [mem_entries_iff_node? hproper h, mem_entries_iff_node? hproper' h', hsame]

end Disk

end StreamStore
