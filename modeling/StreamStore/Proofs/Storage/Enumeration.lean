import Mathlib.Data.List.Perm.Basic
import StreamStore.Proofs.Storage.Directories
import StreamStore.Proofs.Stream.Order

/-!
# Finding all streams

The streams on a disk are found by reading the names in the directories of the types.
A stream is listed once for each name that is read as its own, whereas looking it up
asks for one name only.  So the list agrees with the lookup exactly where no such name
has a capital digit; a stream that is looked up successfully is listed in any case.
-/

namespace StreamStore

theorem mapM_eq_ok_iff {ε α β : Type} {f : α → Except ε β} {g : α → β} {xs : List α}
    {ys : List β} (hg : ∀ x y, f x = .ok y → g x = y) :
    xs.mapM f = .ok ys ↔ ys = xs.map g ∧ ∀ x ∈ xs, f x = .ok (g x) := by
  induction xs generalizing ys with
  | nil =>
      rw [and_iff_left (List.forall_mem_nil _)]
      constructor
      · rintro ⟨⟩
        rfl
      · rintro rfl
        rfl
  | cons x xs ih =>
      rw [List.mapM_cons, List.map_cons, List.forall_mem_cons]
      cases hfirst : f x with
      | error fault => exact iff_of_false nofun fun h => nomatch h.2.1
      | ok y =>
          rw [← hg x y hfirst]
          constructor
          · intro h
            cases hrest : xs.mapM f with
            | error fault =>
                rw [hrest] at h
                cases h
            | ok rest =>
                rw [hrest] at h
                cases h
                obtain ⟨rfl, hall⟩ := ih.mp hrest
                exact ⟨rfl, rfl, hall⟩
          · rintro ⟨rfl, -, hall⟩
            rw [ih.mpr ⟨rfl, hall⟩]
            rfl

namespace Extent

variable {d : Disk} {base : Path} {s : StreamId} {t : StreamType} {type : Option StreamType}
  {types : List StreamType} {name : String} {xs ys : List Extent}

/-! ## The directories of the types -/

/-- The type that an entry of the base directory stands for. -/
def asType : String × Node → Option StreamType
  | (name, .directory) => (StreamType.ofString name).toOption
  | (_, .file _) => none

theorem asType_eq_some_iff {entry : String × Node} :
    asType entry = some t ↔ entry = (t.text, .directory) := by
  obtain ⟨name, node⟩ := entry
  cases node with
  | file content => simp [asType]
  | directory =>
      rw [asType, Prod.mk.injEq, and_iff_left rfl, eq_comm (a := name),
        ← StreamType.ofString_eq_ok_iff]
      cases StreamType.ofString name <;> simp [Except.toOption]

/-- The types whose directories are gone through. -/
def typesOf (d : Disk) (base : Path) : Option StreamType → Except StorageFault (List StreamType)
  | some t => .ok [t]
  | none => Extent.types d base

theorem types_eq_ok (h : Extent.types d base = .ok types) :
    (∃ entries, d.entries base = .ok entries ∧ types = entries.filterMap asType) ∨
      d.lookup base = .error .notFound ∧ types = [] := by
  rw [Extent.types] at h
  split at h
  next entries hentries =>
    cases h
    exact .inl ⟨entries, hentries, rfl⟩
  next hmissing =>
    cases h
    exact .inr ⟨Disk.lookup_of_entries_error hmissing, rfl⟩
  · cases h

/-- A directory that has the name of a type is gone through. -/
theorem mem_types_of_lookup (h : Extent.types d base = .ok types)
    (hlookup : d.lookup (typeDirectory base t) = .ok .directory) : t ∈ types := by
  obtain ⟨hbase, hnode⟩ := Disk.lookup_append_singleton_eq_ok_iff.mp hlookup
  rcases types_eq_ok h with ⟨entries, hentries, rfl⟩ | ⟨hmissing, -⟩
  · exact List.mem_filterMap.mpr
      ⟨_, Disk.mem_entries_of_node? hentries hnode, asType_eq_some_iff.mpr rfl⟩
  · cases hbase.symm.trans hmissing

theorem nodup_typesOf (hproper : d.nodes.Proper) (h : typesOf d base type = .ok types) :
    types.Nodup := by
  cases type with
  | some t =>
      cases h
      exact List.nodup_singleton t
  | none =>
      rcases types_eq_ok h with ⟨entries, hentries, rfl⟩ | ⟨-, rfl⟩
      · refine List.pairwise_filterMap.mpr ?_
        refine (Disk.names_pairwise_ne hproper hentries).imp fun {entry entry'} hne => ?_
        rintro t ht t' ht' rfl
        rw [asType_eq_some_iff] at ht ht'
        exact hne (by rw [ht, ht'])
      · exact List.nodup_nil

/-! ## The names in one directory -/

/-- Some name in the directory of a stream's type, read as that of a headers file, has
the stream's key. -/
def Bears (d : Disk) (base : Path) (s : StreamId) (name : String) : Prop :=
  d.exists? (typeDirectory base s.type ++ [name]) = .ok true ∧
    keyOfHeadersName? name = some s.key

/-- The extent that an entry of a type's directory stands for. -/
def asExtent (base : Path) (t : StreamType) (entry : String × Node) : Option Extent :=
  (keyOfHeadersName? entry.1).map fun key => ofStream base ⟨key, t⟩

theorem asExtent_eq_some_iff {entry : String × Node} {x : Extent} :
    asExtent base t entry = some x ↔
      ∃ key, keyOfHeadersName? entry.1 = some key ∧ ofStream base ⟨key, t⟩ = x := by
  rw [asExtent, Option.map_eq_some_iff]

theorem ofType_eq_ok (h : ofType d base t = .ok xs) :
    (∃ entries, d.entries (typeDirectory base t) = .ok entries ∧
        xs = entries.filterMap (asExtent base t)) ∨
      d.lookup (typeDirectory base t) = .error .notFound ∧ xs = [] := by
  rw [ofType] at h
  split at h
  next entries hentries =>
    cases h
    exact .inl ⟨entries, hentries, rfl⟩
  next hmissing =>
    cases h
    exact .inr ⟨Disk.lookup_of_entries_error hmissing, rfl⟩
  · cases h

theorem mem_ofType_iff (h : ofType d base t = .ok xs) {x : Extent} :
    x ∈ xs ↔ ∃ name key, Bears d base ⟨key, t⟩ name ∧ ofStream base ⟨key, t⟩ = x := by
  rcases ofType_eq_ok h with ⟨entries, hentries, rfl⟩ | ⟨hmissing, rfl⟩
  · rw [List.mem_filterMap]
    constructor
    · rintro ⟨⟨name, node⟩, hmem, hx⟩
      obtain ⟨key, hkey, hx⟩ := asExtent_eq_some_iff.mp hx
      exact ⟨name, key, ⟨Disk.exists?_of_mem_entries hentries hmem, hkey⟩, hx⟩
    · rintro ⟨name, key, ⟨hexists, hkey⟩, hx⟩
      obtain ⟨node, hmem⟩ := (Disk.exists_mem_entries_iff hentries name).mpr hexists
      exact ⟨_, hmem, asExtent_eq_some_iff.mpr ⟨key, hkey, hx⟩⟩
  · refine iff_of_false (List.not_mem_nil) ?_
    rintro ⟨name, key, ⟨hexists, -⟩, -⟩
    obtain ⟨node, hnode⟩ := Disk.exists?_eq_true_iff.mp hexists
    rw [Disk.lookup_append_singleton_of_error hmissing] at hnode
    cases hnode

/-- Where a directory of a type can be gone through, a stream of the type is listed once
exactly where not two names there have its key. -/
theorem ofType_pairwise_iff (hproper : d.nodes.Proper) (h : ofType d base t = .ok xs) :
    (xs.Pairwise fun x y => x.stream ≠ y.stream) ↔
      ∀ key name name', Bears d base ⟨key, t⟩ name → Bears d base ⟨key, t⟩ name' →
        name = name' := by
  rcases ofType_eq_ok h with ⟨entries, hentries, rfl⟩ | ⟨hmissing, rfl⟩
  · rw [List.pairwise_filterMap]
    constructor
    · intro hpairwise key name name' hbears hbears'
      by_contra hne
      obtain ⟨node, hmem⟩ := (Disk.exists_mem_entries_iff hentries name).mpr hbears.1
      obtain ⟨node', hmem'⟩ := (Disk.exists_mem_entries_iff hentries name').mpr hbears'.1
      have hsymm : Std.Symm fun entry entry' : String × Node =>
          ∀ x, asExtent base t entry = some x → ∀ y, asExtent base t entry' = some y →
            x.stream ≠ y.stream :=
        ⟨fun _ _ hnot x hx y hy => (hnot y hy x hx).symm⟩
      refine hpairwise.forall hmem hmem' (fun heq => hne (congrArg Prod.fst heq)) _
        (asExtent_eq_some_iff.mpr ⟨key, hbears.2, rfl⟩) _
        (asExtent_eq_some_iff.mpr ⟨key, hbears'.2, rfl⟩) rfl
    · intro honce
      refine (Disk.names_pairwise_ne hproper hentries).imp_of_mem ?_
      rintro ⟨name, node⟩ ⟨name', node'⟩ hmem hmem' hne x hx y hy hsame
      obtain ⟨key, hkey, rfl⟩ := asExtent_eq_some_iff.mp hx
      obtain ⟨key', hkey', rfl⟩ := asExtent_eq_some_iff.mp hy
      cases hsame
      exact hne (honce key name name' ⟨Disk.exists?_of_mem_entries hentries hmem, hkey⟩
        ⟨Disk.exists?_of_mem_entries hentries hmem', hkey'⟩)
  · refine iff_of_true List.Pairwise.nil ?_
    rintro key name name' ⟨hexists, -⟩
    obtain ⟨node, hnode⟩ := Disk.exists?_eq_true_iff.mp hexists
    rw [Disk.lookup_append_singleton_of_error hmissing] at hnode
    cases hnode

/-! ## The whole list -/

/-- What going through the directory of a type gives, if it can be gone through. -/
def listed (d : Disk) (base : Path) (t : StreamType) : List Extent :=
  (ofType d base t).toOption.getD []

theorem listed_of_ofType (h : ofType d base t = .ok xs) : listed d base t = xs := by
  rw [listed, h]
  rfl

theorem all_eq_ok_iff :
    all d base type = .ok xs ↔ ∃ types, typesOf d base type = .ok types ∧
      (∀ t ∈ types, ofType d base t = .ok (listed d base t)) ∧
      xs = (types.flatMap (listed d base)).mergeSort
        fun x y => (x.stream.compare y.stream).isLE := by
  have hsteps : all d base type = (typesOf d base type).bind fun types =>
      (types.mapM (ofType d base)).map fun lists =>
        lists.flatten.mergeSort fun x y => (x.stream.compare y.stream).isLE := by
    cases type <;> rfl
  have hlists (types : List StreamType) (lists : List (List Extent)) :
      types.mapM (ofType d base) = .ok lists ↔ lists = types.map (listed d base) ∧
        ∀ t ∈ types, ofType d base t = .ok (listed d base t) :=
    mapM_eq_ok_iff fun t ys => listed_of_ofType
  rw [hsteps]
  constructor
  · intro h
    cases htypes : typesOf d base type with
    | error fault =>
        rw [htypes] at h
        cases h
    | ok types =>
        rw [htypes, Except.bind] at h
        cases hmapped : types.mapM (ofType d base) with
        | error fault =>
            rw [hmapped] at h
            cases h
        | ok lists =>
            rw [hmapped] at h
            cases h
            obtain ⟨rfl, hall⟩ := (hlists types lists).mp hmapped
            exact ⟨types, rfl, hall, rfl⟩
  · rintro ⟨types, htypes, hall, rfl⟩
    rw [htypes, Except.bind, (hlists types _).mpr ⟨rfl, hall⟩]
    rfl

/-- The list goes up in the order of identities. -/
theorem sortedBy_all (h : all d base type = .ok xs) :
    SortedBy StreamId.compare (xs.map (·.stream)) := by
  obtain ⟨types, -, -, rfl⟩ := all_eq_ok_iff.mp h
  exact sortedBy_map_mergeSort _ _

theorem mem_listed_iff {types : List StreamType}
    (h : ∀ t ∈ types, ofType d base t = .ok (listed d base t)) {x : Extent} :
    x ∈ types.flatMap (listed d base) ↔
      x.stream.type ∈ types ∧ (∃ name, Bears d base x.stream name) ∧
        ofStream base x.stream = x := by
  rw [List.mem_flatMap]
  constructor
  · rintro ⟨t, ht, hx⟩
    obtain ⟨name, key, hbears, rfl⟩ := (mem_ofType_iff (h t ht)).mp hx
    exact ⟨ht, ⟨name, hbears⟩, rfl⟩
  · rintro ⟨ht, ⟨name, hbears⟩, hx⟩
    exact ⟨_, ht, (mem_ofType_iff (h _ ht)).mpr ⟨name, x.stream.key, hbears, hx⟩⟩

/-- What is listed are extents of streams. -/
theorem ofStream_of_mem_all (h : all d base type = .ok xs) {x : Extent} (hx : x ∈ xs) :
    ofStream base x.stream = x := by
  obtain ⟨types, -, hall, rfl⟩ := all_eq_ok_iff.mp h
  exact ((mem_listed_iff hall).mp (List.mem_mergeSort.mp hx)).2.2

theorem Bears.lookup (h : Bears d base s name) :
    d.lookup (typeDirectory base s.type) = .ok .directory := by
  obtain ⟨node, hnode⟩ := Disk.exists?_eq_true_iff.mp h.1
  exact (Disk.lookup_append_singleton_eq_ok_iff.mp hnode).1

theorem mem_typesOf_of_bears (h : typesOf d base type = .ok types)
    (htype : ∀ t, type = some t → s.type = t) (hbears : Bears d base s name) :
    s.type ∈ types := by
  cases type with
  | some t =>
      cases h
      exact List.mem_singleton.mpr (htype t rfl)
  | none => exact mem_types_of_lookup h hbears.lookup

/-- A stream is listed where some name is read as its own. -/
theorem mem_all_iff (h : all d base type = .ok xs) :
    s ∈ xs.map (·.stream) ↔
      (∀ t, type = some t → s.type = t) ∧ ∃ name, Bears d base s name := by
  obtain ⟨types, htypes, hall, rfl⟩ := all_eq_ok_iff.mp h
  rw [List.mem_map]
  constructor
  · rintro ⟨x, hx, rfl⟩
    obtain ⟨hmem, hbears, -⟩ := (mem_listed_iff hall).mp (List.mem_mergeSort.mp hx)
    refine ⟨?_, hbears⟩
    rintro t rfl
    cases htypes
    exact List.mem_singleton.mp hmem
  · rintro ⟨htype, name, hbears⟩
    refine ⟨ofStream base s, List.mem_mergeSort.mpr ((mem_listed_iff hall).mpr ?_), rfl⟩
    exact ⟨mem_typesOf_of_bears htypes htype hbears, ⟨name, hbears⟩, rfl⟩

/-- Each stream is listed once exactly where not two names are read as one stream's. -/
theorem nodup_all_iff (hproper : d.nodes.Proper) (h : all d base none = .ok xs) :
    (xs.map (·.stream)).Nodup ↔
      ∀ s name name', Bears d base s name → Bears d base s name' → name = name' := by
  obtain ⟨types, htypes, hall, rfl⟩ := all_eq_ok_iff.mp h
  rw [List.Nodup, List.pairwise_map, (List.mergeSort_perm _ _).pairwise_iff Ne.symm,
    List.flatMap, List.pairwise_flatten]
  constructor
  · rintro ⟨hlists, -⟩ ⟨key, t⟩ name name' hbears hbears'
    have hmem : t ∈ types := mem_types_of_lookup htypes hbears.lookup
    exact (ofType_pairwise_iff hproper (hall t hmem)).mp
      (hlists _ (List.mem_map_of_mem hmem)) key name name' hbears hbears'
  · intro honce
    constructor
    · intro list hlist
      obtain ⟨t, hmem, rfl⟩ := List.mem_map.mp hlist
      exact (ofType_pairwise_iff hproper (hall t hmem)).mpr fun key => honce ⟨key, t⟩
    · refine List.pairwise_map.mpr ((nodup_typesOf hproper htypes).imp_of_mem ?_)
      rintro t u ht hu hne x hx y hy hsame
      obtain ⟨-, key, -, rfl⟩ := (mem_ofType_iff (hall t ht)).mp hx
      obtain ⟨-, key', -, rfl⟩ := (mem_ofType_iff (hall u hu)).mp hy
      exact hne (congrArg StreamId.type hsame)

/-! ## Agreement with looking a stream up -/

theorem find?_eq_some_iff :
    (∃ x, find? d base s = .ok (some x)) ↔ Bears d base s (headersName s) := by
  rw [Bears, and_iff_left (keyOfHeadersName?_headersName s), find?, ofStream]
  cases hexists : d.exists? (typeDirectory base s.type ++ [headersName s]) with
  | error fault => simp
  | ok there => cases there <;> simp

/-- Each stream that is looked up successfully is listed, once, and nothing else is. -/
structure AgreesWithLookup (d : Disk) (base : Path) (xs : List Extent) : Prop where
  once : (xs.map (·.stream)).Nodup
  exact : ∀ s, s ∈ xs.map (·.stream) ↔ ∃ x, find? d base s = .ok (some x)

/-- Nothing in the directory of a type that is read as a headers file's name has a
capital digit. -/
def Uncapitalized (d : Disk) (base : Path) : Prop :=
  ∀ s name, Bears d base s name → ∀ c ∈ name.toList.take 32, ¬Hex.IsCapital c

theorem agreesWithLookup_iff (hproper : d.nodes.Proper) (h : all d base none = .ok xs) :
    AgreesWithLookup d base xs ↔ Uncapitalized d base := by
  have hlisted (s : StreamId) : s ∈ xs.map (·.stream) ↔ ∃ name, Bears d base s name := by
    rw [mem_all_iff h, and_iff_right (fun _ => nofun)]
  constructor
  · rintro ⟨honce, hexact⟩ s name hbears
    have hfound := find?_eq_some_iff.mp ((hexact s).mp ((hlisted s).mpr ⟨name, hbears⟩))
    exact (eq_headersName_iff s.type hbears.2).mp
      ((nodup_all_iff hproper h).mp honce s _ _ hbears hfound)
  · intro hsmall
    have hname (s : StreamId) (name : String) (hbears : Bears d base s name) :
        name = headersName s :=
      (eq_headersName_iff s.type hbears.2).mpr (hsmall s name hbears)
    constructor
    · refine (nodup_all_iff hproper h).mpr fun s name name' hbears hbears' => ?_
      rw [hname s name hbears, hname s name' hbears']
    · intro s
      rw [hlisted, find?_eq_some_iff]
      constructor
      · rintro ⟨name, hbears⟩
        rwa [hname s name hbears] at hbears
      · exact fun hbears => ⟨_, hbears⟩

/-! ## One type -/

theorem flatMap_ite_eq {α β : Type} [DecidableEq α] {xs : List α} (hnodup : xs.Nodup) (x : α)
    (ys : List β) :
    (xs.flatMap fun y => if y = x then ys else []) = if x ∈ xs then ys else [] := by
  induction xs with
  | nil => rfl
  | cons z zs ih =>
      obtain ⟨hz, hzs⟩ := List.nodup_cons.mp hnodup
      rw [List.flatMap_cons, ih hzs]
      by_cases hx : z = x
      · subst hx
        rw [if_pos rfl, if_neg hz, if_pos List.mem_cons_self, List.append_nil]
      · rw [if_neg hx, List.nil_append]
        simp only [List.mem_cons, Ne.symm hx, false_or]

/-- Of the types that are gone through, one has what is listed of it. -/
theorem filter_flatMap_listed (hnodup : types.Nodup)
    (h : ∀ t ∈ types, ofType d base t = .ok (listed d base t)) (t : StreamType) :
    (types.flatMap (listed d base)).filter (·.stream.type = t) =
      if t ∈ types then listed d base t else [] := by
  rw [← flatMap_ite_eq hnodup, List.filter_flatMap]
  refine List.flatMap_congr fun u hu => ?_
  have htype (x : Extent) (hx : x ∈ listed d base u) : x.stream.type = u := by
    obtain ⟨-, -, -, rfl⟩ := (mem_ofType_iff (h u hu)).mp hx
    rfl
  split
  next heq =>
    subst heq
    exact List.filter_eq_self.mpr fun x hx => decide_eq_true (htype x hx)
  next hne =>
    refine List.filter_eq_nil_iff.mpr fun x hx => ?_
    rw [htype x hx]
    exact fun heq => hne (of_decide_eq_true heq)

/-- Lists that name the same streams equally often are the same. -/
theorem eq_of_perm_of_all (hx : ∀ x ∈ xs, ofStream base x.stream = x)
    (hy : ∀ y ∈ ys, ofStream base y.stream = y)
    (hxs : SortedBy StreamId.compare (xs.map (·.stream)))
    (hys : SortedBy StreamId.compare (ys.map (·.stream))) (hperm : xs.Perm ys) : xs = ys := by
  have hstreams := hxs.eq_of_perm hys (hperm.map _)
  have hback : ∀ zs : List Extent, (∀ z ∈ zs, ofStream base z.stream = z) →
      (zs.map (·.stream)).map (ofStream base) = zs := by
    intro zs hz
    rw [List.map_map]
    exact (List.map_congr_left hz).trans (List.map_id zs)
  rw [← hback xs hx, hstreams, hback ys hy]

/-- The list of one type is the part of the whole list that has the type. -/
theorem all_some_eq_filter (hproper : d.nodes.Proper) (h : all d base none = .ok xs)
    (ht : all d base (some t) = .ok ys) : ys = xs.filter (·.stream.type = t) := by
  refine eq_of_perm_of_all (fun y hy => ofStream_of_mem_all ht hy)
    (fun x hx => ofStream_of_mem_all h (List.mem_of_mem_filter hx)) (sortedBy_all ht)
    ((sortedBy_all h).sublist (List.filter_sublist.map _)) ?_
  obtain ⟨types, htypes, hall, rfl⟩ := all_eq_ok_iff.mp h
  obtain ⟨_, ⟨⟩, hone, rfl⟩ := all_eq_ok_iff.mp ht
  have hlisted := hone t List.mem_cons_self
  have hwhole := (List.mergeSort_perm (types.flatMap (listed d base))
    fun x y => (x.stream.compare y.stream).isLE).filter (·.stream.type = t)
  have hpart := List.mergeSort_perm ([t].flatMap (listed d base))
    fun x y => (x.stream.compare y.stream).isLE
  refine hpart.trans (List.Perm.trans ?_ hwhole.symm)
  rw [filter_flatMap_listed (nodup_typesOf hproper htypes) hall, List.flatMap_singleton]
  split
  · exact .refl _
  next hnot =>
    rcases ofType_eq_ok hlisted with ⟨entries, hentries, -⟩ | ⟨-, hnothing⟩
    · exact absurd (mem_types_of_lookup htypes (Disk.lookup_of_entries hentries)) hnot
    · rw [hnothing]

/-- The list agrees with looking streams up exactly where no name of a headers file has a
capital digit; a stream that is found is listed in any case, and the list of one type is
a part of the whole list. -/
theorem listsAsFound_iff (hproper : d.nodes.Proper) (h : all d base none = .ok xs) :
    (AgreesWithLookup d base xs ↔ Uncapitalized d base) ∧
      (∀ s x, find? d base s = .ok (some x) → s ∈ xs.map (·.stream)) ∧
      ∀ t ys, all d base (some t) = .ok ys → ys = xs.filter (·.stream.type = t) := by
  refine ⟨agreesWithLookup_iff hproper h, ?_, ?_⟩
  · intro s x hfound
    exact (mem_all_iff h).mpr ⟨fun _ => nofun, _, find?_eq_some_iff.mp ⟨x, hfound⟩⟩
  · intro t ys ht
    exact all_some_eq_filter hproper h ht

/-- A disk with the directory of a type, and in it one headers file under a name with
capital digits. -/
def capitalized : Disk where
  nodes := ⟨[(["payments"], .directory),
    (["payments", "FFFFFFFFFFFFFFFFFFFFFFFFFFFFFFFF_0_headers.dat"], .file [])]⟩

/-- The stream that the name on the disk is read as. -/
def lastPayment : StreamId := ⟨⟨BitVec.allOnes 128⟩, ⟨"payments", by decide⟩⟩

theorem all_capitalized : all capitalized [] none = .ok [ofStream [] lastPayment] := by
  decide +kernel

/-- The stream is listed but not found. -/
theorem not_agreesWithLookup_of_capitals :
    capitalized.nodes.Proper ∧ all capitalized [] none = .ok [ofStream [] lastPayment] ∧
      find? capitalized [] lastPayment = .ok none ∧
      ¬AgreesWithLookup capitalized [] [ofStream [] lastPayment] := by
  have hproper : capitalized.nodes.Proper := by
    rw [Table.Proper]
    decide
  have hbears : Bears capitalized [] lastPayment
      "FFFFFFFFFFFFFFFFFFFFFFFFFFFFFFFF_0_headers.dat" := by
    constructor <;> decide +kernel
  refine ⟨hproper, all_capitalized, by decide +kernel, ?_⟩
  rw [(listsAsFound_iff hproper all_capitalized).1]
  intro hsmall
  exact hsmall lastPayment _ hbears 'F' (by decide +kernel) (by decide)

/-! ## Directories gone through in another order -/

section Order

variable {d' : Disk} (hproper : d.nodes.Proper) (hproper' : d'.nodes.Proper)
  (hsame : ∀ q, d.node? q = d'.node? q)

include hproper hproper' hsame

theorem exists_typesOf_perm (h : typesOf d base type = .ok types) :
    ∃ types', typesOf d' base type = .ok types' ∧ types.Perm types' := by
  cases type with
  | some t => exact ⟨types, h, .refl _⟩
  | none =>
      rcases types_eq_ok h with ⟨entries, hentries, rfl⟩ | ⟨hmissing, rfl⟩
      · obtain ⟨entries', hentries', hperm⟩ :=
          Disk.exists_entries_perm hproper hproper' hsame hentries
        refine ⟨_, ?_, hperm.filterMap asType⟩
        rw [typesOf, Extent.types, hentries']
        rfl
      · rw [Disk.lookup_eq_of_node? hsame] at hmissing
        refine ⟨[], ?_, .refl _⟩
        rw [typesOf, Extent.types, Disk.entries, hmissing]

theorem ofType_perm (h : ofType d base t = .ok (listed d base t)) :
    ofType d' base t = .ok (listed d' base t) ∧
      (listed d base t).Perm (listed d' base t) := by
  have hthere : ∃ ys, ofType d' base t = .ok ys ∧ (listed d base t).Perm ys := by
    rcases ofType_eq_ok h with ⟨entries, hentries, heq⟩ | ⟨hmissing, heq⟩
    · obtain ⟨entries', hentries', hperm⟩ :=
        Disk.exists_entries_perm hproper hproper' hsame hentries
      refine ⟨_, ?_, heq ▸ hperm.filterMap (asExtent base t)⟩
      rw [ofType, hentries']
      rfl
    · rw [Disk.lookup_eq_of_node? hsame] at hmissing
      refine ⟨[], ?_, heq ▸ .refl _⟩
      rw [ofType, Disk.entries, hmissing]
  obtain ⟨ys, hys, hperm⟩ := hthere
  rw [listed_of_ofType hys]
  exact ⟨hys, hperm⟩

/-- The list does not depend on the order in which directories are gone through. -/
theorem all_eq_of_node? (h : all d base type = .ok xs) : all d' base type = .ok xs := by
  obtain ⟨types, htypes, hall, hxs⟩ := all_eq_ok_iff.mp h
  obtain ⟨types', htypes', hperm⟩ := exists_typesOf_perm hproper hproper' hsame htypes
  have hlists : ∀ t ∈ types, ofType d' base t = .ok (listed d' base t) ∧
      (listed d base t).Perm (listed d' base t) :=
    fun t ht => ofType_perm hproper hproper' hsame (hall t ht)
  have h' := all_eq_ok_iff.mpr ⟨types', htypes',
    fun t ht => (hlists t (hperm.mem_iff.mpr ht)).1, rfl⟩
  have hflat : (types.flatMap (listed d base)).Perm (types'.flatMap (listed d' base)) :=
    hperm.flatMap fun t ht => (hlists t ht).2
  rw [h']
  congr 1
  refine (eq_of_perm_of_all (fun x => ofStream_of_mem_all h)
    (fun x => ofStream_of_mem_all h') (sortedBy_all h) (sortedBy_all h') ?_).symm
  rw [hxs]
  exact (List.mergeSort_perm _ _).trans (hflat.trans (List.mergeSort_perm _ _).symm)

end Order

end Extent

end StreamStore
