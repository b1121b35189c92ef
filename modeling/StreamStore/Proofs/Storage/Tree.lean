import Mathlib.Data.Nat.Notation
import StreamStore.Storage.Extent

/-!
# Stream files in a tree

Below a base directory a store keeps a directory for each stream type and two
files for each stream.  A disk that is `Rooted` at the base has nothing else at
those places, so what a call finds at a stream's file is decided by the row of
the file alone.  Paths of different streams, and the two paths of one stream,
are different.
-/

namespace StreamStore

/-! ## Names and paths -/

theorem Extent.headersSuffix_ne_dataSuffix :
    Extent.headersSuffix.toList ≠ Extent.dataSuffix.toList := by decide

theorem StreamType.ext {a b : StreamType} (h : a.text = b.text) : a = b := by
  cases a
  cases b
  cases h
  rfl

namespace Extent

theorem toList_headersName (s : StreamId) :
    (headersName s).toList = s.key.digits ++ headersSuffix.toList := by
  rw [headersName, String.toList_append, Uuid.simple, String.toList_ofList]

theorem toList_dataName (s : StreamId) :
    (dataName s).toList = s.key.digits ++ dataSuffix.toList := by
  rw [dataName, String.toList_append, Uuid.simple, String.toList_ofList]

/-- A name of 32 digits and a suffix determines the digits and the suffix. -/
theorem key_eq_of_append_eq {u v : Uuid} {xs ys : List Char}
    (h : u.digits ++ xs = v.digits ++ ys) : u = v ∧ xs = ys := by
  have hlength : u.digits.length = v.digits.length := by
    rw [Uuid.length_digits, Uuid.length_digits]
  obtain ⟨hdigits, hrest⟩ := List.append_inj h hlength
  exact ⟨Uuid.digits_injective hdigits, hrest⟩

theorem headersName_injective {a b : StreamId}
    (h : headersName a = headersName b) : a.key = b.key := by
  have hlist := congrArg String.toList h
  rw [toList_headersName, toList_headersName] at hlist
  exact (key_eq_of_append_eq hlist).1

theorem dataName_injective {a b : StreamId}
    (h : dataName a = dataName b) : a.key = b.key := by
  have hlist := congrArg String.toList h
  rw [toList_dataName, toList_dataName] at hlist
  exact (key_eq_of_append_eq hlist).1

theorem headersName_ne_dataName (a b : StreamId) :
    headersName a ≠ dataName b := by
  intro h
  have hlist := congrArg String.toList h
  rw [toList_headersName, toList_dataName] at hlist
  exact headersSuffix_ne_dataSuffix (key_eq_of_append_eq hlist).2

theorem path_inj {base : Path} {t u : StreamType} {m n : String}
    (h : typeDirectory base t ++ [m] = typeDirectory base u ++ [n]) :
    t = u ∧ m = n := by
  simp only [typeDirectory, List.append_assoc, List.singleton_append,
    List.append_cancel_left_eq, List.cons.injEq, and_true] at h
  exact ⟨StreamType.ext h.1, h.2⟩

theorem headers_injective {base : Path} {a b : StreamId}
    (h : (ofStream base a).headers = (ofStream base b).headers) : a = b := by
  obtain ⟨htype, hname⟩ := path_inj h
  have hkey := headersName_injective hname
  cases a
  cases b
  simp only at htype hkey
  rw [htype, hkey]

theorem data_injective {base : Path} {a b : StreamId}
    (h : (ofStream base a).data = (ofStream base b).data) : a = b := by
  obtain ⟨htype, hname⟩ := path_inj h
  have hkey := dataName_injective hname
  cases a
  cases b
  simp only at htype hkey
  rw [htype, hkey]

theorem headers_ne_data (base : Path) (a b : StreamId) :
    (ofStream base a).headers ≠ (ofStream base b).data := by
  intro h
  exact headersName_ne_dataName a b (path_inj h).2

/-- A path is one of a stream's two files. -/
def IsFileOf (base : Path) (s : StreamId) (p : Path) : Prop :=
  p = (ofStream base s).headers ∨ p = (ofStream base s).data

theorem isFileOf_headers (base : Path) (s : StreamId) :
    IsFileOf base s (ofStream base s).headers :=
  Or.inl rfl

theorem isFileOf_data (base : Path) (s : StreamId) :
    IsFileOf base s (ofStream base s).data :=
  Or.inr rfl

theorem IsFileOf.eq {base : Path} {a b : StreamId} {p : Path}
    (ha : IsFileOf base a p) (hb : IsFileOf base b p) : a = b := by
  rcases ha with rfl | rfl
  · rcases hb with hb | hb
    · exact headers_injective hb
    · exact (headers_ne_data base a b hb).elim
  · rcases hb with hb | hb
    · exact (headers_ne_data base b a hb.symm).elim
    · exact data_injective hb

theorem IsFileOf.exists_name {base : Path} {s : StreamId} {p : Path}
    (h : IsFileOf base s p) : ∃ name, p = typeDirectory base s.type ++ [name] := by
  rcases h with rfl | rfl
  · exact ⟨_, rfl⟩
  · exact ⟨_, rfl⟩

theorem IsFileOf.ne_typeDirectory {base : Path} {s : StreamId} {p : Path}
    (h : IsFileOf base s p) (t : StreamType) : p ≠ typeDirectory base t := by
  obtain ⟨name, rfl⟩ := h.exists_name
  intro heq
  have hlength := congrArg List.length heq
  simp [typeDirectory] at hlength

theorem IsFileOf.ne_base {base : Path} {s : StreamId} {p : Path}
    (h : IsFileOf base s p) {q : Path} (hq : q.length ≤ base.length) : p ≠ q := by
  obtain ⟨name, rfl⟩ := h.exists_name
  rintro rfl
  simp only [typeDirectory, List.length_append, List.length_singleton] at hq
  omega

end Extent

/-! ## Looking a path up -/

namespace Disk

theorem ancestors_append_singleton (p : Path) (name : String) :
    ancestors (p ++ [name]) = ancestors p ++ [p] := by
  have hinit : ∀ n ∈ List.range p.length, (p ++ [name]).take n = p.take n := by
    intro n hn
    exact List.take_append_of_le_length (Nat.le_of_lt (List.mem_range.mp hn))
  rw [ancestors, List.length_append, List.length_singleton, List.range_succ,
    List.map_append, List.map_congr_left hinit, List.map_singleton,
    List.take_left, ← ancestors]

theorem length_lt_of_mem_ancestors {p q : Path} (h : q ∈ ancestors p) :
    q.length < p.length := by
  obtain ⟨n, hn, rfl⟩ := List.mem_map.mp h
  rw [List.mem_range] at hn
  rw [List.length_take]
  omega

theorem node?_put_self (d : Disk) {p : Path} (hp : p ≠ []) (node : Node) :
    (d.put p node).node? p = some node := by
  rw [node?, if_neg hp, put, Table.find?_insert_self]

theorem node?_put_of_ne (d : Disk) {p q : Path} (h : q ≠ p) (node : Node) :
    (d.put p node).node? q = d.node? q := by
  rw [node?, node?, put, Table.find?_insert_of_ne _ _ h]

theorem obstacle?_append_singleton (d : Disk) (p : Path) (name : String) :
    d.obstacle? (p ++ [name]) = (d.obstacle? p).or
      (match d.node? p with
        | none => some .notFound
        | some (.file _) => some .notDirectory
        | some .directory => none) := by
  rcases hnode : d.node? p with _ | ⟨_ | content⟩ <;>
    simp only [obstacle?, ancestors_append_singleton, List.findSome?_append,
      List.findSome?_singleton, hnode]

/-- Below a directory, what a path leads to is the row of the path. -/
theorem lookup_append_singleton_of_directory
    {d : Disk} {p : Path} (h : d.lookup p = .ok .directory) (name : String) :
    d.lookup (p ++ [name]) =
      match d.node? (p ++ [name]) with
      | none => .error .notFound
      | some node => .ok node := by
  rw [lookup] at h
  split at h
  · cases h
  next hobstacle =>
    split at h
    · cases h
    next node hnode =>
      cases h
      rw [lookup, obstacle?_append_singleton, hobstacle, hnode]
      rfl

theorem lookup_append_singleton_of_notFound
    {d : Disk} {p : Path} (h : d.lookup p = .error .notFound) (name : String) :
    d.lookup (p ++ [name]) = .error .notFound := by
  rw [lookup] at h
  split at h
  next fault hobstacle =>
    cases h
    rw [lookup, obstacle?_append_singleton, hobstacle]
    rfl
  next hobstacle =>
    split at h
    next hnode =>
      rw [lookup, obstacle?_append_singleton, hobstacle, hnode]
      rfl
    · cases h

/-- What opening a file at a path gives. -/
def openedAt (d : Disk) (p : Path) : Opened := .file p (d.removedFrom p).length

/-- A disk whose base is a directory with nothing in it but type directories,
and in those, at the places of stream files, nothing but files. -/
structure Rooted (d : Disk) (base : Path) : Prop where
  base_lookup : d.lookup base = .ok .directory
  type_node : ∀ (t : StreamType) (node : Node),
    d.node? (Extent.typeDirectory base t) = some node → node = .directory
  file_node : ∀ (s : StreamId) (p : Path) (node : Node),
    Extent.IsFileOf base s p → d.node? p = some node →
      d.node? (Extent.typeDirectory base s.type) = some .directory ∧
        ∃ content, node = .file content

/-- A disk whose base is a directory with nothing below it. -/
structure Vacant (d : Disk) (base : Path) : Prop where
  base_lookup : d.lookup base = .ok .directory
  node?_eq_none : ∀ p, base <+: p → p ≠ base → d.node? p = none

theorem Vacant.node?_typeDirectory {d : Disk} {base : Path} (h : d.Vacant base)
    (t : StreamType) : d.node? (Extent.typeDirectory base t) = none := by
  apply h.node?_eq_none _ (List.prefix_append _ _)
  intro heq
  have hlength := congrArg List.length heq
  simp at hlength

theorem Vacant.node?_file {d : Disk} {base : Path} (h : d.Vacant base) {s : StreamId}
    {p : Path} (hp : Extent.IsFileOf base s p) : d.node? p = none := by
  apply h.node?_eq_none
  · obtain ⟨name, rfl⟩ := hp.exists_name
    exact (List.prefix_append _ _).trans (List.prefix_append _ _)
  · exact hp.ne_base (Nat.le_refl _)

theorem Vacant.rooted {d : Disk} {base : Path} (h : d.Vacant base) : d.Rooted base where
  base_lookup := h.base_lookup
  type_node t node hnode := by
    rw [h.node?_typeDirectory t] at hnode
    cases hnode
  file_node s p node hp hnode := by
    rw [h.node?_file hp] at hnode
    cases hnode

namespace Rooted

variable {d : Disk} {base : Path}

theorem lookup_typeDirectory (h : d.Rooted base) (t : StreamType) :
    d.lookup (Extent.typeDirectory base t) =
      match d.node? (Extent.typeDirectory base t) with
      | none => .error .notFound
      | some _ => .ok .directory := by
  rw [Extent.typeDirectory, lookup_append_singleton_of_directory h.base_lookup,
    ← Extent.typeDirectory]
  cases hnode : d.node? (Extent.typeDirectory base t) with
  | none => rfl
  | some node => rw [h.type_node t node hnode]

/-- What stands at a stream's file decides what every call finds there. -/
theorem lookup_file (h : d.Rooted base) {s : StreamId} {p : Path}
    (hp : Extent.IsFileOf base s p) :
    d.lookup p =
      match d.node? p with
      | none => .error .notFound
      | some node => .ok node := by
  obtain ⟨name, rfl⟩ := hp.exists_name
  have htype := h.lookup_typeDirectory s.type
  cases hnode : d.node? (Extent.typeDirectory base s.type) with
  | none =>
      rw [hnode] at htype
      rw [lookup_append_singleton_of_notFound htype]
      cases hfile : d.node? (Extent.typeDirectory base s.type ++ [name]) with
      | none => rfl
      | some node =>
          have := (h.file_node s _ node hp hfile).1
          rw [hnode] at this
          cases this
  | some node =>
      rw [hnode] at htype
      exact lookup_append_singleton_of_directory htype name

theorem exists?_file (h : d.Rooted base) {s : StreamId} {p : Path}
    (hp : Extent.IsFileOf base s p) :
    d.exists? p = .ok (d.node? p).isSome := by
  rw [exists?, h.lookup_file hp]
  cases d.node? p with
  | none => rfl
  | some node => rfl

theorem open?_file (h : d.Rooted base) {s : StreamId} {p : Path}
    (hp : Extent.IsFileOf base s p) :
    d.open? p = .ok (if (d.node? p).isSome then some (d.openedAt p) else none) := by
  rw [open?, h.lookup_file hp]
  cases hnode : d.node? p with
  | none => rfl
  | some node =>
      obtain ⟨-, content, rfl⟩ := h.file_node s p node hp hnode
      rfl

theorem length_file (h : d.Rooted base) {s : StreamId} {p : Path}
    (hp : Extent.IsFileOf base s p) {content : Bytes}
    (hnode : d.node? p = some (.file content)) :
    d.length p = .ok content.length := by
  rw [length, h.lookup_file hp, hnode]
  rfl

end Rooted

/-- A file that was just opened holds the bytes that stand at its path. -/
theorem contentOf_file (d : Disk) {p : Path} {content : Bytes}
    (hnode : d.node? p = some (.file content)) :
    d.contentOf (d.openedAt p) = content := by
  rw [openedAt, contentOf, List.getElem?_eq_none (Nat.le_refl _), hnode]

theorem lengthOf_file (d : Disk) {p : Path} {content : Bytes}
    (hnode : d.node? p = some (.file content)) :
    d.lengthOf (d.openedAt p) = content.length := by
  have hcontent := contentOf_file d hnode
  rw [openedAt] at hcontent ⊢
  rw [lengthOf, hcontent]
  rintro ⟨⟩

/-- The bytes of a file, none where it is missing. -/
def bytesAt (d : Disk) (p : Path) : Bytes :=
  match d.node? p with
  | some (.file content) => content
  | _ => []

theorem bytesAt_eq {d : Disk} {p : Path} {content : Bytes}
    (hnode : d.node? p = some (.file content)) : d.bytesAt p = content := by
  rw [bytesAt, hnode]

theorem bytesAt_congr {d d' : Disk} {p : Path} (h : d'.node? p = d.node? p) :
    d'.bytesAt p = d.bytesAt p := by
  rw [bytesAt, bytesAt, h]

/-! ## Changing a file -/

/-- Two disks have the same rows except perhaps at some paths. -/
def AgreeOff (places : Path → Prop) (d d' : Disk) : Prop :=
  ∀ q, ¬places q → d'.node? q = d.node? q

theorem AgreeOff.trans {places : Path → Prop} {d d' d'' : Disk}
    (h : AgreeOff places d d') (h' : AgreeOff places d' d'') :
    AgreeOff places d d'' := by
  intro q hq
  rw [h' q hq, h q hq]

theorem AgreeOff.mono {places places' : Path → Prop} {d d' : Disk}
    (h : AgreeOff places d d') (hsub : ∀ q, places q → places' q) :
    AgreeOff places' d d' :=
  fun q hq => h q fun hplace => hq (hsub q hplace)

theorem obstacle?_congr {d d' : Disk} {p : Path}
    (h : ∀ q ∈ ancestors p, d'.node? q = d.node? q) :
    d'.obstacle? p = d.obstacle? p := by
  rw [obstacle?, obstacle?]
  generalize ancestors p = places at h
  induction places with
  | nil => rfl
  | cons q places ih =>
      rw [List.findSome?_cons, List.findSome?_cons, h q List.mem_cons_self,
        ih fun q' hq' => h q' (List.mem_cons_of_mem q hq')]

theorem lookup_congr {d d' : Disk} {p : Path}
    (hancestors : ∀ q ∈ ancestors p, d'.node? q = d.node? q)
    (hnode : d'.node? p = d.node? p) : d'.lookup p = d.lookup p := by
  rw [lookup, lookup, obstacle?_congr hancestors, hnode]

/-- The base itself stays a directory whatever changes strictly below it. -/
theorem base_lookup_of_agreeOff {d d' : Disk} {base : Path}
    (h : d.lookup base = .ok .directory)
    (hagree : AgreeOff (fun q => base.length < q.length) d d') :
    d'.lookup base = .ok .directory := by
  rw [lookup_congr ?_ (hagree base (Nat.lt_irrefl _)), h]
  intro q hq
  exact hagree q (Nat.lt_asymm (length_lt_of_mem_ancestors hq))

theorem extend_eq_ok {d d' : Disk} {p : Path} {content bytes : Bytes}
    (h : d.extend p content bytes = (.ok (), d')) :
    bytes.length ≤ maxFile - content.length ∧
      d' = d.put p (.file (content ++ bytes)) := by
  simp only [extend, Prod.mk.injEq] at h
  obtain ⟨hok, hd⟩ := h
  split at hok
  next hroom =>
    rw [List.take_of_length_le hroom] at hd
    exact ⟨hroom, hd.symm⟩
  · cases hok

end Disk

namespace Extent

theorem IsFileOf.length_lt {base : Path} {s : StreamId} {p : Path}
    (h : IsFileOf base s p) : base.length < p.length := by
  obtain ⟨name, rfl⟩ := h.exists_name
  simp only [typeDirectory, List.length_append, List.length_singleton]
  omega

theorem IsFileOf.ne_nil {base : Path} {s : StreamId} {p : Path}
    (h : IsFileOf base s p) : p ≠ [] := by
  obtain ⟨name, rfl⟩ := h.exists_name
  exact List.append_ne_nil_of_right_ne_nil _ (List.cons_ne_nil _ _)

theorem length_lt_typeDirectory (base : Path) (t : StreamType) :
    base.length < (typeDirectory base t).length := by
  simp only [typeDirectory, List.length_append, List.length_singleton]
  omega

theorem typeDirectory_ne_nil (base : Path) (t : StreamType) :
    typeDirectory base t ≠ [] :=
  List.append_ne_nil_of_right_ne_nil _ (List.cons_ne_nil _ _)

end Extent

namespace Disk.Rooted

variable {d : Disk} {base : Path}

/-- A stream's file may be written once its directory is there. -/
theorem put_file (h : d.Rooted base) {s : StreamId} {p : Path}
    (hp : Extent.IsFileOf base s p)
    (htype : d.node? (Extent.typeDirectory base s.type) = some .directory)
    (content : Bytes) : (d.put p (.file content)).Rooted base where
  base_lookup := by
    apply base_lookup_of_agreeOff h.base_lookup
    intro q hq
    apply node?_put_of_ne
    rintro rfl
    exact hq hp.length_lt
  type_node := by
    intro t node hnode
    rw [node?_put_of_ne _ (hp.ne_typeDirectory t).symm] at hnode
    exact h.type_node t node hnode
  file_node := by
    intro s' q node hq hnode
    rw [node?_put_of_ne _ (hp.ne_typeDirectory s'.type).symm]
    by_cases hqp : q = p
    · subst hqp
      rw [node?_put_self _ hp.ne_nil] at hnode
      cases hnode
      rw [← hp.eq hq]
      exact ⟨htype, content, rfl⟩
    · rw [node?_put_of_ne _ hqp] at hnode
      exact h.file_node s' q node hq hnode

theorem put_typeDirectory (h : d.Rooted base) (t : StreamType) :
    (d.put (Extent.typeDirectory base t) .directory).Rooted base where
  base_lookup := by
    apply base_lookup_of_agreeOff h.base_lookup
    intro q hq
    apply node?_put_of_ne
    rintro rfl
    exact hq (Extent.length_lt_typeDirectory base t)
  type_node := by
    intro u node hnode
    by_cases hu : Extent.typeDirectory base u = Extent.typeDirectory base t
    · rw [hu, node?_put_self _ (Extent.typeDirectory_ne_nil base t)] at hnode
      cases hnode
      rfl
    · rw [node?_put_of_ne _ hu] at hnode
      exact h.type_node u node hnode
  file_node := by
    intro s p node hp hnode
    rw [node?_put_of_ne _ (hp.ne_typeDirectory t)] at hnode
    obtain ⟨htype, hfile⟩ := h.file_node s p node hp hnode
    refine ⟨?_, hfile⟩
    by_cases hs : Extent.typeDirectory base s.type = Extent.typeDirectory base t
    · rw [hs, node?_put_self _ (Extent.typeDirectory_ne_nil base t)]
    · rw [node?_put_of_ne _ hs]
      exact htype

/-- Where a path leads to a directory, so do its ancestors. -/
theorem node?_of_lookup {p : Path} (h : d.lookup p = .ok .directory) :
    d.node? p = some .directory ∧ ∀ q ∈ ancestors p, d.node? q = some .directory := by
  rw [lookup] at h
  split at h
  · cases h
  next hobstacle =>
    split at h
    · cases h
    next node hnode =>
      cases h
      refine ⟨hnode, fun q hq => ?_⟩
      rw [obstacle?, List.findSome?_eq_none_iff] at hobstacle
      have hclear := hobstacle q hq
      split at hclear
      · cases hclear
      · cases hclear
      next hdirectory => exact hdirectory

theorem node?_of_mem_ancestors (h : d.Rooted base) (t : StreamType) {q : Path}
    (hq : q ∈ ancestors (Extent.typeDirectory base t)) :
    d.node? q = some .directory := by
  obtain ⟨hbase, hancestors⟩ := node?_of_lookup h.base_lookup
  rw [Extent.typeDirectory, ancestors_append_singleton, List.mem_append,
    List.mem_singleton] at hq
  rcases hq with hq | rfl
  · exact hancestors q hq
  · exact hbase

/-- Make one directory of those on the way to a place. -/
def makeOnTheWay (place : Path) (d : Disk) (q : Path) : Except DiskFault Disk :=
  match d.node? q with
  | none => .ok (d.put q .directory)
  | some .directory => .ok d
  | some (.file _) => .error (if q = place then .alreadyExists else .notDirectory)

theorem foldlM_makeOnTheWay {places : List Path}
    (hplaces : ∀ q ∈ places, d.node? q = some .directory) (p : Path) :
    (places ++ [p]).foldlM (makeOnTheWay p) d = makeOnTheWay p d p := by
  induction places with
  | nil =>
      rw [List.nil_append, List.foldlM_cons]
      cases makeOnTheWay p d p <;> rfl
  | cons q places ih =>
      have hstep : makeOnTheWay p d q = .ok d := by
        rw [makeOnTheWay, hplaces q List.mem_cons_self]
      rw [List.cons_append, List.foldlM_cons, hstep]
      exact ih fun q' hq' => hplaces q' (List.mem_cons_of_mem q hq')

/-- Making a directory that is there changes nothing. -/
theorem makeDirectories_of_lookup {p : Path} (h : d.lookup p = .ok .directory) :
    d.makeDirectories p = .ok d := by
  obtain ⟨hnode, hancestors⟩ := node?_of_lookup h
  have hmake : d.makeDirectories p = makeOnTheWay p d p :=
    foldlM_makeOnTheWay (fun q hq => hancestors q (List.mem_of_mem_drop hq)) p
  rw [hmake, makeOnTheWay, hnode]

/-- Making the directory of a type changes at most its own row. -/
theorem makeDirectories_typeDirectory (h : d.Rooted base) (t : StreamType) :
    ∃ d', d.makeDirectories (Extent.typeDirectory base t) = .ok d' ∧
      d'.Rooted base ∧
      d'.node? (Extent.typeDirectory base t) = some .directory ∧
      AgreeOff (· = Extent.typeDirectory base t) d d' := by
  have hmake : d.makeDirectories (Extent.typeDirectory base t) =
      makeOnTheWay (Extent.typeDirectory base t) d (Extent.typeDirectory base t) :=
    foldlM_makeOnTheWay
      (fun q hq => h.node?_of_mem_ancestors t (List.mem_of_mem_drop hq)) _
  rw [makeOnTheWay] at hmake
  cases hnode : d.node? (Extent.typeDirectory base t) with
  | none =>
      rw [hnode] at hmake
      refine ⟨_, hmake, h.put_typeDirectory t, ?_, ?_⟩
      · exact node?_put_self _ (Extent.typeDirectory_ne_nil base t) _
      · intro q hq
        exact node?_put_of_ne _ hq _
  | some node =>
      cases h.type_node t node hnode
      rw [hnode] at hmake
      exact ⟨d, hmake, h, hnode, fun _ _ => rfl⟩

/-- Preparing a stream's extent makes at most the directory of its type. -/
theorem prepare_extent (h : d.Rooted base) (s : StreamId) :
    ∃ d', Extent.prepare d base s = .ok (Extent.ofStream base s, d') ∧
      d'.Rooted base ∧
      d'.node? (Extent.typeDirectory base s.type) = some .directory ∧
      AgreeOff (· = Extent.typeDirectory base s.type) d d' := by
  have hheaders := Extent.isFileOf_headers base s
  rw [Extent.prepare, h.exists?_file hheaders]
  cases hnode : d.node? (Extent.ofStream base s).headers with
  | some node =>
      exact ⟨d, rfl, h, (h.file_node s _ node hheaders hnode).1, fun _ _ => rfl⟩
  | none =>
      obtain ⟨d', hmake, hrooted, hdirectory, hagree⟩ :=
        h.makeDirectories_typeDirectory s.type
      refine ⟨d', ?_, hrooted, hdirectory, hagree⟩
      simp only [Option.isSome_none, hmake]

/-- Opening a stream's file for writing gives its bytes, and makes it if it is
missing. -/
theorem openForWriting_file (h : d.Rooted base) {s : StreamId} {p : Path}
    (hp : Extent.IsFileOf base s p)
    (htype : d.node? (Extent.typeDirectory base s.type) = some .directory) :
    ∃ d', d.openForWriting p = .ok (d.bytesAt p, d') ∧ d'.Rooted base ∧
      d'.node? p = some (.file (d.bytesAt p)) ∧ AgreeOff (· = p) d d' := by
  cases hnode : d.node? p with
  | some node =>
      obtain ⟨-, content, rfl⟩ := h.file_node s p node hp hnode
      have hbytes : d.bytesAt p = content := by rw [bytesAt, hnode]
      refine ⟨d, ?_, h, by rw [hbytes, hnode], fun _ _ => rfl⟩
      rw [openForWriting, h.lookup_file hp, hnode, hbytes]
  | none =>
      have hbytes : d.bytesAt p = [] := by rw [bytesAt, hnode]
      have hobstacle : d.obstacle? p = none := by
        have hlookup := h.lookup_typeDirectory s.type
        rw [htype, lookup] at hlookup
        obtain ⟨name, rfl⟩ := hp.exists_name
        split at hlookup
        · cases hlookup
        next hclear =>
          rw [obstacle?_append_singleton, hclear, htype]
          rfl
      refine ⟨d.put p (.file []), ?_, h.put_file hp htype [], ?_, ?_⟩
      · rw [openForWriting, h.lookup_file hp, hnode, hbytes]
        simp only [hobstacle]
      · rw [hbytes, node?_put_self d hp.ne_nil]
      · intro q hq
        exact node?_put_of_ne d hq _

/-- Writing to an opened file of a stream changes that file alone. -/
theorem extend_file (h : d.Rooted base) {s : StreamId} {p : Path}
    (hp : Extent.IsFileOf base s p)
    (htype : d.node? (Extent.typeDirectory base s.type) = some .directory)
    (content bytes : Bytes) :
    (d.extend p content bytes).2.Rooted base ∧
      (d.extend p content bytes).2.node? p =
        some (.file (content ++ bytes.take (maxFile - content.length))) ∧
      AgreeOff (· = p) d (d.extend p content bytes).2 := by
  refine ⟨h.put_file hp htype _, node?_put_self d hp.ne_nil _, ?_⟩
  intro q hq
  exact node?_put_of_ne d hq _

/-! ## Removing files -/

/-- Removing one of a stream's files keeps the tree as it should be, and leaves nothing at its
path if it succeeds. -/
theorem removeIfThere_file (h : d.Rooted base) {s : StreamId} {p : Path}
    (hp : Extent.IsFileOf base s p) {hindrance : Option Hindrance}
    {result : Except IoFault Unit} {d' : Disk}
    (hrun : Extent.removeIfThere d p hindrance = (result, d')) :
    d'.Rooted base ∧ AgreeOff (· = p) d d' ∧
      (result = .ok () → d'.node? p = none) := by
  unfold Extent.removeIfThere at hrun
  rw [removeFile, h.lookup_file hp] at hrun
  cases hnode : d.node? p with
  | none =>
      rw [hnode] at hrun
      cases hrun
      exact ⟨h, fun _ _ => rfl, fun _ => hnode⟩
  | some node =>
      obtain ⟨-, content, rfl⟩ := h.file_node s p node hp hnode
      rw [hnode] at hrun
      cases hindrance with
      | some hindrance =>
          cases hrun
          exact ⟨h, fun _ _ => rfl, nofun⟩
      | none =>
          cases hrun
          have hself : ({ d with nodes := d.nodes.erase p
                                 removed := d.removed ++ [(p, content)] } : Disk).node? p
              = none := by
            rw [node?, if_neg hp.ne_nil, Table.find?_erase_self]
          have hagree : AgreeOff (· = p) d
              { d with nodes := d.nodes.erase p
                       removed := d.removed ++ [(p, content)] } := by
            intro q hq
            rw [node?, node?, Table.find?_erase_of_ne _ hq]
          refine ⟨?_, hagree, fun _ => hself⟩
          exact {
            base_lookup := base_lookup_of_agreeOff h.base_lookup
              (hagree.mono fun q hq => hq ▸ hp.length_lt)
            type_node := by
              intro t node hnode
              rw [hagree _ (hp.ne_typeDirectory t).symm] at hnode
              exact h.type_node t node hnode
            file_node := by
              intro s' q node hq hnode
              have hqp : q ≠ p := by
                rintro rfl
                rw [hself] at hnode
                cases hnode
              rw [hagree _ hqp] at hnode
              rw [hagree _ (hp.ne_typeDirectory s'.type).symm]
              exact h.file_node s' q node hq hnode }

/-- What stands at a stream's path, if anything, is a file, which can be removed. -/
theorem removeIfThere_fst (h : d.Rooted base) {s : StreamId} {p : Path}
    (hp : Extent.IsFileOf base s p) : (Extent.removeIfThere d p none).1 = .ok () := by
  unfold Extent.removeIfThere
  rw [removeFile, h.lookup_file hp]
  cases hnode : d.node? p with
  | none => rfl
  | some node =>
      obtain ⟨-, content, rfl⟩ := h.file_node s p node hp hnode
      rfl

/-- One round of removal touches the stream's two files alone, and a round that
succeeds leaves neither. -/
theorem removeOnce_extent (h : d.Rooted base) {s : StreamId} {weather : Interference}
    {result : Except IoFault Unit} {d' : Disk}
    (hrun : Extent.removeOnce d (Extent.ofStream base s) weather = (result, d')) :
    d'.Rooted base ∧ AgreeOff (Extent.IsFileOf base s) d d' ∧
      (result = .ok () → ∀ p, Extent.IsFileOf base s p → d'.node? p = none) := by
  cases hfirst : Extent.removeIfThere d (Extent.ofStream base s).headers
    weather.headers with
  | mk headers d₁ =>
  cases hsecond : Extent.removeIfThere d₁ (Extent.ofStream base s).data
    weather.data with
  | mk data d₂ =>
  obtain ⟨hrooted₁, hagree₁, hgone₁⟩ :=
    h.removeIfThere_file (Extent.isFileOf_headers base s) hfirst
  obtain ⟨hrooted₂, hagree₂, hgone₂⟩ :=
    hrooted₁.removeIfThere_file (Extent.isFileOf_data base s) hsecond
  have hagree : AgreeOff (Extent.IsFileOf base s) d d₂ :=
    (hagree₁.mono fun q hq => Or.inl hq).trans (hagree₂.mono fun q hq => Or.inr hq)
  simp only [Extent.removeOnce, hfirst, hsecond] at hrun
  cases headers with
  | error fault =>
      cases hrun
      exact ⟨hrooted₂, hagree, by rintro ⟨⟩⟩
  | ok _ =>
      cases hrun
      refine ⟨hrooted₂, hagree, ?_⟩
      rintro hok p (rfl | rfl)
      · rw [hagree₂ _ (Extent.headers_ne_data base s s)]
        exact hgone₁ rfl
      · exact hgone₂ hok

theorem removeRounds_extent (h : d.Rooted base) {s : StreamId} {attempts left : Nat}
    {weather : Nat → Interference} {result : Except StorageFault Unit} {d' : Disk}
    (hrun : Extent.removeRounds (Extent.ofStream base s) attempts weather left d =
      (result, d')) :
    d'.Rooted base ∧ AgreeOff (Extent.IsFileOf base s) d d' ∧
      (result = .ok () → ∀ p, Extent.IsFileOf base s p → d'.node? p = none) := by
  induction left generalizing d with
  | zero =>
      unfold Extent.removeRounds at hrun
      cases hround : Extent.removeOnce d (Extent.ofStream base s)
        (weather (attempts - 1 - 0)) with
      | mk outcome d₁ =>
      obtain ⟨hrooted₁, hagree₁, hgone₁⟩ := h.removeOnce_extent hround
      rw [hround] at hrun
      cases outcome with
      | ok _ =>
          cases hrun
          exact ⟨hrooted₁, hagree₁, fun _ => hgone₁ rfl⟩
      | error fault =>
          cases hrun
          exact ⟨hrooted₁, hagree₁, by rintro ⟨⟩⟩
  | succ left ih =>
      unfold Extent.removeRounds at hrun
      cases hround : Extent.removeOnce d (Extent.ofStream base s)
        (weather (attempts - 1 - (left + 1))) with
      | mk outcome d₁ =>
      obtain ⟨hrooted₁, hagree₁, hgone₁⟩ := h.removeOnce_extent hround
      rw [hround] at hrun
      cases outcome with
      | ok _ =>
          cases hrun
          exact ⟨hrooted₁, hagree₁, fun _ => hgone₁ rfl⟩
      | error fault =>
          obtain ⟨hrooted₂, hagree₂, hgone₂⟩ := ih hrooted₁ hrun
          exact ⟨hrooted₂, hagree₁.trans hagree₂, hgone₂⟩

/-- A removal touches the stream's two files alone, and one that succeeds
leaves neither. -/
theorem remove_extent (h : d.Rooted base) {s : StreamId} {attempts : Nat}
    {weather : Nat → Interference} {result : Except StorageFault Unit} {d' : Disk}
    (hrun : Extent.remove d (Extent.ofStream base s) attempts weather =
      (result, d')) :
    d'.Rooted base ∧ AgreeOff (Extent.IsFileOf base s) d d' ∧
      (result = .ok () → ∀ p, Extent.IsFileOf base s p → d'.node? p = none) :=
  h.removeRounds_extent hrun

/-- Where nothing interferes, the first round of a removal succeeds. -/
theorem remove_extent_fst (h : d.Rooted base) (s : StreamId) (attempts : Nat) :
    (Extent.remove d (Extent.ofStream base s) attempts fun _ => {}).1 = .ok () := by
  have hfirst := h.removeIfThere_fst (Extent.isFileOf_headers base s)
  generalize hheaders : Extent.removeIfThere d (Extent.ofStream base s).headers none =
    removed at hfirst
  obtain ⟨headers, d₁⟩ := removed
  obtain ⟨hrooted₁, -⟩ := h.removeIfThere_file (Extent.isFileOf_headers base s) hheaders
  have hsecond := hrooted₁.removeIfThere_fst (Extent.isFileOf_data base s)
  generalize hdata : Extent.removeIfThere d₁ (Extent.ofStream base s).data none =
    removed at hsecond
  obtain ⟨data, d₂⟩ := removed
  simp only at hfirst hsecond
  subst hfirst hsecond
  have honce : Extent.removeOnce d (Extent.ofStream base s) {} = (.ok (), d₂) := by
    simp only [Extent.removeOnce, hheaders, hdata]
  unfold Extent.remove Extent.removeRounds
  simp only [honce]

end Disk.Rooted

end StreamStore
