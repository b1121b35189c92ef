import StreamStore.Proofs.Storage.Crash

/-!
# An append depends on its stream's files alone

Two archives may differ in the files of other streams, in the directories that there are
and in the type names they remember.  An append to a stream whose files are the same in
both comes to the same result in both, and leaves the stream's files the same.
-/

namespace StreamStore

/-- What is laid out does not depend on the type names that are remembered. -/
theorem DataFile.layOut_congr {cache cache' : TypeCache} (hcache : cache.Sound)
    (hcache' : cache'.Sound) (patience : Patience) (offset : Nat) (events : List Event) :
    (layOut patience offset cache' events).1.bytes =
        (layOut patience offset cache events).1.bytes ∧
      (layOut patience offset cache' events).1.headers =
        (layOut patience offset cache events).1.headers ∧
      (layOut patience offset cache' events).2 = (layOut patience offset cache events).2 := by
  induction events generalizing patience offset cache cache' with
  | nil => exact ⟨rfl, rfl, rfl⟩
  | cons e events ih =>
      rw [layOut, layOut]
      cases patience.look with
      | none => exact ⟨rfl, rfl, rfl⟩
      | some patience₁ =>
          by_cases hpayload : maxPayload < e.data.length
          · simp only [if_pos hpayload, and_self]
          · simp only [if_neg hpayload]
            have hbuffer := TypeCache.bufferOf_fst hcache e.type
            have hbuffer' := TypeCache.bufferOf_fst hcache' e.type
            obtain ⟨hbytes, hheaders, hresult⟩ := ih (TypeCache.sound_bufferOf hcache e.type)
              (TypeCache.sound_bufferOf hcache' e.type) patience₁
              (offset + ((TypeBuffer.ofType e.type).bytes ++ e.data).length)
            rw [hbuffer, hbuffer', hbytes, hheaders, hresult]
            cases (layOut patience₁ _ (cache.bufferOf e.type).2 events).2 with
            | ok patience₂ => exact ⟨rfl, rfl, rfl⟩
            | error fault => cases fault <;> exact ⟨rfl, rfl, rfl⟩

namespace Disk

/-- Two disks on which an append to a stream finds the same: the stream's files, and the
directory of its type. -/
structure Twin (base : Path) (s : StreamId) (d d' : Disk) : Prop where
  rooted : d.Rooted base
  rooted' : d'.Rooted base
  type_node : d.node? (Extent.typeDirectory base s.type) = some .directory
  type_node' : d'.node? (Extent.typeDirectory base s.type) = some .directory
  same : ∀ p, Extent.IsFileOf base s p → d'.node? p = d.node? p

variable {base : Path} {s : StreamId} {d d' : Disk}

theorem Rooted.twin_prepare (h : d.Rooted base) (h' : d'.Rooted base)
    (hsame : ∀ p, Extent.IsFileOf base s p → d'.node? p = d.node? p) :
    ∃ d₁ d₁', Extent.prepare d base s = .ok (Extent.ofStream base s, d₁) ∧
      Extent.prepare d' base s = .ok (Extent.ofStream base s, d₁') ∧ Twin base s d₁ d₁' := by
  obtain ⟨d₁, hprepare, hrooted, htype, hagree⟩ := h.prepare_extent s
  obtain ⟨d₁', hprepare', hrooted', htype', hagree'⟩ := h'.prepare_extent s
  refine ⟨d₁, d₁', hprepare, hprepare', hrooted, hrooted', htype, htype', fun p hp => ?_⟩
  rw [hagree' p (hp.ne_typeDirectory s.type), hsame p hp, hagree p (hp.ne_typeDirectory s.type)]

namespace Twin

/-- Changes of one of the stream's files alone, to the same, keep disks twins. -/
theorem of_agreeOff {p : Path} {e e' : Disk} (h : Twin base s d d')
    (hp : Extent.IsFileOf base s p) (hrooted : e.Rooted base) (hrooted' : e'.Rooted base)
    (hagree : AgreeOff (· = p) d e) (hagree' : AgreeOff (· = p) d' e')
    (hsame : e'.node? p = e.node? p) : Twin base s e e' := by
  have htype := (hp.ne_typeDirectory s.type).symm
  refine ⟨hrooted, hrooted', ?_, ?_, fun q hq => ?_⟩
  · rw [hagree _ htype, h.type_node]
  · rw [hagree' _ htype, h.type_node']
  · by_cases hqp : q = p
    · rw [hqp, hsame]
    · rw [hagree' q hqp, h.same q hq, hagree q hqp]

theorem openForWriting (h : Twin base s d d') {p : Path} (hp : Extent.IsFileOf base s p) :
    ∃ content d₁ d₁', d.openForWriting p = .ok (content, d₁) ∧
      d'.openForWriting p = .ok (content, d₁') ∧ Twin base s d₁ d₁' := by
  obtain ⟨d₁, hopen, hrooted, hnode, hagree⟩ := h.rooted.openForWriting_file hp h.type_node
  obtain ⟨d₁', hopen', hrooted', hnode', hagree'⟩ :=
    h.rooted'.openForWriting_file hp h.type_node'
  rw [bytesAt_congr (h.same p hp)] at hopen' hnode'
  exact ⟨_, d₁, d₁', hopen, hopen',
    h.of_agreeOff hp hrooted hrooted' hagree hagree' (hnode'.trans hnode.symm)⟩

theorem extend (h : Twin base s d d') {p : Path} (hp : Extent.IsFileOf base s p)
    (content bytes : Bytes) :
    Twin base s (d.extend p content bytes).2 (d'.extend p content bytes).2 := by
  obtain ⟨hrooted, hnode, hagree⟩ := h.rooted.extend_file hp h.type_node content bytes
  obtain ⟨hrooted', hnode', hagree'⟩ := h.rooted'.extend_file hp h.type_node' content bytes
  exact h.of_agreeOff hp hrooted hrooted' hagree hagree' (hnode'.trans hnode.symm)

theorem append_data (h : Twin base s d d') {cache cache' : TypeCache} (hcache : cache.Sound)
    (hcache' : cache'.Sound) (events : List Event) (patience : Patience) :
    (DataFile.append d' (Extent.ofStream base s) cache' events patience).1 =
        (DataFile.append d (Extent.ofStream base s) cache events patience).1 ∧
      Twin base s (DataFile.append d (Extent.ofStream base s) cache events patience).2.1
        (DataFile.append d' (Extent.ofStream base s) cache' events patience).2.1 ∧
      (DataFile.append d (Extent.ofStream base s) cache events patience).2.2.Sound ∧
      (DataFile.append d' (Extent.ofStream base s) cache' events patience).2.2.Sound := by
  have hfile := Extent.isFileOf_data base s
  obtain ⟨content, d₁, d₁', hopen, hopen', htwin⟩ := h.openForWriting hfile
  obtain ⟨hbytes, hheaders, hresult⟩ :=
    DataFile.layOut_congr hcache hcache' patience content.length events
  have hsound := DataFile.cache_sound_layOut hcache patience content.length events
  have hsound' := DataFile.cache_sound_layOut hcache' patience content.length events
  simp only [DataFile.append, hopen, hopen', hbytes, hheaders, hresult]
  exact ⟨rfl, htwin.extend hfile content _, hsound, hsound'⟩

theorem append_headers (h : Twin base s d d') (headers : List HeaderRecord)
    (patience : Patience) :
    (HeadersFile.append d' (Extent.ofStream base s) headers patience).1 =
        (HeadersFile.append d (Extent.ofStream base s) headers patience).1 ∧
      Twin base s (HeadersFile.append d (Extent.ofStream base s) headers patience).2
        (HeadersFile.append d' (Extent.ofStream base s) headers patience).2 := by
  have hfile := Extent.isFileOf_headers base s
  obtain ⟨content, d₁, d₁', hopen, hopen', htwin⟩ := h.openForWriting hfile
  simp only [HeadersFile.append, hopen, hopen']
  exact ⟨rfl, htwin.extend hfile content _⟩

end Twin

end Disk

namespace Archive

/-- Two archives in which a stream has the same files. -/
structure Alike (s : StreamId) (a a' : Archive) : Prop where
  base_eq : a'.base = a.base
  sound : a.Sound
  sound' : a'.Sound
  same : ∀ p, Extent.IsFileOf a.base s p → a'.disk.node? p = a.disk.node? p

namespace Alike

variable {s r : StreamId} {a a' b : Archive}

theorem refl (h : a.Sound) (s : StreamId) : Alike s a a := ⟨rfl, h, h, fun _ _ => rfl⟩

theorem symm (h : Alike s a a') : Alike s a' a where
  base_eq := h.base_eq.symm
  sound := h.sound'
  sound' := h.sound
  same p hp := (h.same p (h.base_eq ▸ hp)).symm

theorem trans {c : Archive} (h : Alike s a b) (h' : Alike s b c) : Alike s a c where
  base_eq := h'.base_eq.trans h.base_eq
  sound := h.sound
  sound' := h'.sound'
  same p hp := (h'.same p (h.base_eq ▸ hp)).trans (h.same p hp)

/-- What happens to other streams in the one archive does not matter. -/
theorem of_agreeOff (h : Alike s a a') (hbase : b.base = a.base) (hsound : b.Sound)
    (hagree : Disk.AgreeOff (Extent.IsPlaceOf a.base r) a.disk b.disk) (hne : s ≠ r) :
    Alike s b a' := by
  refine ⟨h.base_eq.trans hbase.symm, hsound, h.sound', fun p hp => ?_⟩
  rw [hbase] at hp
  rw [h.same p hp]
  refine (hagree p ?_).symm
  rintro (hplace | hplace)
  · exact hp.ne_typeDirectory r.type hplace
  · exact hne (hp.eq hplace)

/-- Archives on twin disks are alike. -/
theorem of_twin {base : Path} {d d' : Disk} {cache cache' : TypeCache} {n n' : Nat}
    (h : Disk.Twin base s d d') (hcache : cache.Sound) (hcache' : cache'.Sound) :
    Alike s ⟨base, d, cache, n⟩ ⟨base, d', cache', n'⟩ :=
  ⟨rfl, ⟨h.rooted, hcache⟩, ⟨h.rooted', hcache'⟩, h.same⟩

/-- An append comes to the same in both. -/
theorem append (h : Alike s a a') (events : List Event) (patience : Patience) :
    (a'.append s events patience).1 = (a.append s events patience).1 ∧
      Alike s (a.append s events patience).2 (a'.append s events patience).2 := by
  obtain ⟨base, disk, cache, n⟩ := a
  obtain ⟨base', disk', cache', n'⟩ := a'
  obtain ⟨hbase, hsound, hsound', hsame⟩ := h
  simp only at hbase hsame
  subst hbase
  by_cases hempty : events.isEmpty = true
  · simp only [Archive.append, if_pos hempty]
    exact ⟨trivial, rfl, hsound, hsound', hsame⟩
  · obtain ⟨d₁, d₁', hprepare, hprepare', htwin⟩ :=
      hsound.rooted.twin_prepare hsound'.rooted hsame
    obtain ⟨hwritten, htwin₂, hcache₂, hcache₂'⟩ :=
      htwin.append_data hsound.cache_sound hsound'.cache_sound events patience
    simp only [Archive.append, if_neg hempty, hprepare, hprepare']
    generalize DataFile.append d₁ _ cache events patience = first at hwritten htwin₂ hcache₂
    generalize DataFile.append d₁' _ cache' events patience = first'
      at hwritten htwin₂ hcache₂'
    obtain ⟨written, d₂, cache₂⟩ := first
    obtain ⟨written', d₂', cache₂'⟩ := first'
    simp only at hwritten htwin₂ hcache₂ hcache₂'
    subst hwritten
    cases written' with
    | error fault => exact ⟨rfl, .of_twin htwin₂ hcache₂ hcache₂'⟩
    | ok found =>
        obtain ⟨hresult, htwin₃⟩ := htwin₂.append_headers found.1 found.2
        exact ⟨hresult, .of_twin htwin₃ hcache₂ hcache₂'⟩

/-- An append that the disk fails comes to the same in both. -/
theorem appendCut (h : Alike s a a') (events : List Event) (bytes : Nat) :
    (a'.appendCut s events bytes).1 = (a.appendCut s events bytes).1 ∧
      Alike s (a.appendCut s events bytes).2 (a'.appendCut s events bytes).2 := by
  obtain ⟨base, disk, cache, n⟩ := a
  obtain ⟨base', disk', cache', n'⟩ := a'
  obtain ⟨hbase, hsound, hsound', hsame⟩ := h
  simp only at hbase hsame
  subst hbase
  have hfile := Extent.isFileOf_headers base' s
  have hfile' := Extent.isFileOf_data base' s
  obtain ⟨d₁, d₁', hprepare, hprepare', htwin₁⟩ :=
    hsound.rooted.twin_prepare hsound'.rooted hsame
  obtain ⟨content, d₂, d₂', hopen, hopen', htwin₂⟩ := htwin₁.openForWriting hfile'
  obtain ⟨hbytes, hheaders, hresult⟩ := DataFile.layOut_congr hsound.cache_sound
    hsound'.cache_sound none content.length events
  have hcache := DataFile.cache_sound_layOut hsound.cache_sound none content.length events
  have hcache' := DataFile.cache_sound_layOut hsound'.cache_sound none content.length events
  simp only [Archive.appendCut, hprepare, hprepare', hopen, hopen', hbytes, hheaders, hresult]
  generalize DataFile.layOut none content.length cache events = laidOut at hcache ⊢
  generalize DataFile.layOut none content.length cache' events = laidOut' at hcache' ⊢
  obtain ⟨laid, result⟩ := laidOut
  obtain ⟨laid', result'⟩ := laidOut'
  have htwin₃ := htwin₂.extend hfile' content (laid.bytes.take bytes)
  have hwritten : (d₂'.extend (Extent.ofStream base' s).data content (laid.bytes.take bytes)).1 =
      (d₂.extend (Extent.ofStream base' s).data content (laid.bytes.take bytes)).1 := rfl
  generalize d₂.extend (Extent.ofStream base' s).data content (laid.bytes.take bytes) = written
    at htwin₃ hwritten ⊢
  generalize d₂'.extend (Extent.ofStream base' s).data content (laid.bytes.take bytes) = written'
    at htwin₃ hwritten ⊢
  obtain ⟨writing, d₃⟩ := written
  obtain ⟨writing', d₃'⟩ := written'
  simp only at htwin₃ hwritten hcache hcache' ⊢
  subst hwritten
  cases writing' with
  | error fault => exact ⟨rfl, .of_twin htwin₃ hcache hcache'⟩
  | ok _ =>
  cases result with
  | error fault => exact ⟨rfl, .of_twin htwin₃ hcache hcache'⟩
  | ok patience =>
  simp only
  by_cases hshort : bytes < laid.bytes.length
  · simp only [if_pos hshort]
    exact ⟨trivial, .of_twin htwin₃ hcache hcache'⟩
  · obtain ⟨content₄, d₄, d₄', hopen₄, hopen₄', htwin₄⟩ := htwin₃.openForWriting hfile
    simp only [if_neg hshort, hopen₄, hopen₄']
    exact ⟨trivial, .of_twin (htwin₄.extend hfile content₄ _) hcache hcache'⟩

end Alike

end Archive

end StreamStore
