import TermuxX11.VirtualKeys.RoundTrip
import TermuxX11.VirtualKeys.Storage

/-!
# What an import leaves behind

`importProfile` reads a document that may come from anywhere, looks for a name under which there
is no file, and writes the profile there.  Until it writes, nothing has happened; what it writes
is what a later scan has to read.

The name is taken from the document, separators included, and the elements are written as
`toJSONObject` and `getBytes` write them: negative ratios, infinite numbers, the range, columns
and orientation of anything but a range button, and a surrogate without a partner in a text or in
the name do not come back.  `importProfile_safe_iff` says exactly which documents are imported as
they should be.
-/

namespace TermuxX11.VirtualKeys

open Java

/-! ### Elements that last -/

/-- The element is written in full and comes back as it is. -/
structure Element.Lasting (e : Element) : Prop where
  attributes : e.attributes.saved = e.attributes
  ratioX : 0 ≤ e.ratioX
  ratioY : 0 ≤ e.ratioY
  finite : e.failsAt none = none
  text : WellFormed e.text

/-- The two elements have the same attributes and ratios. -/
def Element.Same (e e' : Element) : Prop :=
  e'.attributes = e.attributes ∧ e'.ratioX = e.ratioX ∧ e'.ratioY = e.ratioY

/-- An element that can be read has a scale and both ratios. -/
theorem readElement_fields {C : Coercions} {fields : JSONObject} {c : Content}
    (h : readElement C (.obj fields) = some c) :
    JSONObject.has fields "scale" = true ∧ JSONObject.has fields "x" = true ∧
      JSONObject.has fields "y" = true := by
  have hhas : ∀ {key : String} {q : ℚ}, JSONObject.getDouble C fields key = some q →
      JSONObject.has fields key = true := by
    intro key q hq
    obtain ⟨v, hv, -⟩ := Option.bind_eq_some_iff.1 hq
    rw [JSONObject.has, hv]
    rfl
  obtain ⟨e, he, -⟩ := Option.map_eq_some_iff.1 h
  obtain ⟨set, hset, -⟩ := Option.map_eq_some_iff.1 he
  unfold parseSetters at hset
  obtain ⟨el, hel, hset⟩ := Option.bind_eq_some_iff.1 hset
  obtain rfl := Option.some.inj hel
  obtain ⟨type, -, hset⟩ := Option.bind_eq_some_iff.1 hset
  obtain ⟨shape, -, hset⟩ := Option.bind_eq_some_iff.1 hset
  obtain ⟨scale, hscale, hset⟩ := Option.bind_eq_some_iff.1 hset
  obtain ⟨x, hx, hset⟩ := Option.bind_eq_some_iff.1 hset
  obtain ⟨y, hy, -⟩ := Option.bind_eq_some_iff.1 hset
  exact ⟨hhas hscale, hhas hx, hhas hy⟩

/-- A document that ends where `put` threw cannot be read. -/
theorem readElement_of_failsAt {C : Coercions} {e : Element} (h : e.failsAt none ≠ none) :
    readElement C (e.toJSONObject none) = none := by
  obtain ⟨n, hn⟩ := Option.ne_none_iff_exists'.1 h
  by_contra hread
  obtain ⟨c, hc⟩ := Option.ne_none_iff_exists'.1 hread
  rw [Element.toJSONObject, hn] at hc
  obtain ⟨hscale, hx, hy⟩ := readElement_fields hc
  rcases failsAt_cases hn with rfl | rfl | rfl
  · cases hscale
  · cases hx
  · cases hy

/-- What is saved of the attributes has the text, as a file has it. -/
theorem saved_encoded_iff (e : Element) :
    e.encoded.attributes.saved = e.attributes ↔
      e.attributes.saved = e.attributes ∧ WellFormed e.text := by
  have htext (a : Attributes) : a.saved.text = a.text := by
    unfold Attributes.saved
    split_ifs <;> rfl
  constructor
  · intro h
    have hw : WellFormed e.text := (htext _).symm.trans (congrArg Attributes.text h)
    rw [encoded_of_wellFormed hw] at h
    exact ⟨h, hw⟩
  · rintro ⟨h, hw⟩
    rw [encoded_of_wellFormed hw, h]

theorem readElement_written_iff {C : Coercions} {e : Element} (hvalid : e.attributes.Valid)
    (hx : e.x = 0) (hy : e.y = 0) :
    readElement C (e.toJSONObject none).written = some ⟨e.attributes, e.ratioX, e.ratioY⟩ ↔
      e.Lasting := by
  have hencoded : e.encoded.attributes.Valid := ⟨hvalid.columns, hvalid.bindings⟩
  have hfails : e.encoded.failsAt none = e.failsAt none := rfl
  have hposition : e.encoded.writtenPosition none = e.writtenPosition none := rfl
  rw [written_toJSONObject]
  by_cases hfinite : e.failsAt none = none
  · rw [readElement_toJSONObject C none hencoded (hfails.trans hfinite), Option.some.injEq,
      Content.mk.injEq, hposition, Element.writtenPosition, saved_encoded_iff]
    split_ifs with hnonneg
    · constructor
      · rintro ⟨⟨hattr, htext⟩, -⟩
        exact ⟨hattr, hnonneg.1, hnonneg.2, hfinite, htext⟩
      · exact fun h => ⟨⟨h.attributes, h.text⟩, rfl, rfl⟩
    · refine iff_of_false ?_ fun h => hnonneg ⟨h.ratioX, h.ratioY⟩
      rintro ⟨-, hratioX, hratioY⟩
      rw [hx, Int.cast_zero, zero_div] at hratioX
      rw [hy, Int.cast_zero, zero_div] at hratioY
      exact hnonneg ⟨hratioX.le, hratioY.le⟩
  · refine iff_of_false ?_ fun h => hfinite h.finite
    rw [readElement_of_failsAt fun h => hfinite (hfails.symm.trans h)]
    nofun

/-! ### Whole profiles -/

/-- The element is as `fromJSON` leaves one: without a view, and not placed. -/
structure Element.Unplaced (e : Element) : Prop where
  valid : e.attributes.Valid
  view : e.view = false
  x : e.x = 0
  y : e.y = 0

theorem unplaced_fromJSON {C : Coercions} {name : JString} {j : Json} {p : Profile}
    (h : Profile.fromJSON C name j = some p) : ∀ e ∈ p.elements, e.Unplaced := by
  obtain ⟨-, js, cs, -, -, hcs, hshows, -⟩ := fromJSON_spec h
  unfold Contents at hcs
  generalize p.elements = es at hshows ⊢
  induction hshows generalizing js with
  | nil => exact fun e he => absurd he List.not_mem_nil
  | @cons c e cs es hc _ ih =>
    cases hcs with
    | @cons j _ js _ hj hjs =>
      intro e' he'
      rcases List.mem_cons.1 he' with rfl | he'
      · obtain ⟨e₀, he₀, rfl⟩ := Option.map_eq_some_iff.1 hj
        refine ⟨?_, hc.view, hc.x, hc.y⟩
        rw [hc.attributes]
        exact valid_parseElement he₀
      · exact ih js hjs e' he'

theorem lasting_of_same {C : Coercions} {es es' : List Element} {cs : List Content}
    (hes : ∀ e ∈ es, e.Unplaced)
    (hread : List.Forall₂ (fun e c => readElement C (Element.toJSONObject none e).written = some c)
      es cs)
    (hshows : List.Forall₂ (Element.Shows none) cs es') (hsame : List.Forall₂ Element.Same es es') :
    ∀ e ∈ es, e.Lasting := by
  induction hread generalizing es' with
  | nil => exact fun e he => absurd he List.not_mem_nil
  | @cons e c es cs hc _ ih =>
    cases hshows with
    | cons hshow hshows =>
      cases hsame with
      | cons hsame hsames =>
        rw [List.forall_mem_cons] at hes ⊢
        refine ⟨?_, ih hes.2 hshows hsames⟩
        refine (readElement_written_iff hes.1.valid hes.1.x hes.1.y (C := C)).1 (hc.trans ?_)
        rw [← hshow.content, hsame.1, hsame.2.1, hsame.2.2]

/-- The document of a profile that has no view. -/
theorem document_none (p : Profile) :
    p.document none = .obj [("name", .str (written p.name)), ("elements", .arr
      (p.elements.map fun e => (e.toJSONObject none).written))] := by
  have helements : (p.elements.map fun e => e.toJSONObject (if e.view then none else none)).map
      Json.written = p.elements.map fun e => (e.toJSONObject none).written := by
    simp only [ite_self]
    rw [List.map_map]
    rfl
  rw [Profile.document, Profile.toJSONObject, ← helements]
  simp only [Json.written, Json.writtenFields, Json.writtenValues_eq_map]

/-- What is written of a profile that was read is read again, as it was, exactly if its name has
no single surrogate and all its elements last. -/
theorem fromJSON_document_iff {C : Coercions} {p : Profile} (hp : ∀ e ∈ p.elements, e.Unplaced)
    (name : JString) :
    (∃ q, Profile.fromJSON C name (p.document none) = some q ∧ q.name = p.name ∧
        List.Forall₂ Element.Same p.elements q.elements) ↔
      WellFormed p.name ∧ ∀ e ∈ p.elements, e.Lasting := by
  have hget : JSONObject.getJSONArray [("name", .str (written p.name)), ("elements", .arr
      (p.elements.map fun e => (e.toJSONObject none).written))] "elements" =
      some (p.elements.map fun e => (e.toJSONObject none).written) := rfl
  rw [document_none]
  constructor
  · rintro ⟨q, hq, hqname, hsame⟩
    obtain ⟨json, js, cs, hjson, hjs, hcs, hshows, hname, -⟩ := fromJSON_spec hq
    obtain rfl := Option.some.inj hjson
    obtain rfl := Option.some.inj (hget.symm.trans hjs)
    have hwritten : q.name = written p.name := hname
    exact ⟨hwritten.symm.trans hqname,
      lasting_of_same hp (List.forall₂_map_left_iff.1 hcs) hshows hsame⟩
  · rintro ⟨hwell, hlast⟩
    have hcs : Contents C (p.elements.map fun e => (e.toJSONObject none).written)
        (p.elements.map fun e => ⟨e.attributes, e.ratioX, e.ratioY⟩) := by
      rw [Contents, List.forall₂_map_left_iff, List.forall₂_map_right_iff, List.forall₂_same]
      intro e he
      exact (readElement_written_iff (hp e he).valid (hp e he).x (hp e he).y).2 (hlast e he)
    obtain ⟨q, hq, hname, -⟩ := fromJSON_of_contents name hget hcs
    have hwritten : q.name = written p.name := hname
    refine ⟨q, hq, hwritten.trans hwell, ?_⟩
    obtain ⟨json, js, cs, hjson, hjs, hcs', hshows, -⟩ := fromJSON_spec hq
    obtain rfl := Option.some.inj hjson
    obtain rfl := Option.some.inj (hget.symm.trans hjs)
    obtain rfl := hcs.unique hcs'
    rw [List.forall₂_map_left_iff] at hshows
    exact hshows.imp fun e e' h => ⟨h.attributes, h.ratioX, h.ratioY⟩

/-! ### Places and scans -/

/-- The place that a name should have. -/
def Folders.placeOf (F : Folders) (name : JString) : Loc := ⟨F.home, name ++ lit ".icp"⟩

/-- A name leads to its place exactly if it has no separator. -/
theorem Folders.locate_eq_placeOf_iff {F : Folders} {name : JString} {loc : Loc}
    (h : F.locate name = some loc) : loc = F.placeOf name ↔ separator ∉ name := by
  constructor
  · rintro rfl hmem
    have hentry := entry_of_locate h
    rw [placeOf, List.append_cancel_right_eq] at hentry
    rw [hentry] at hmem
    exact Path.separator_notMem_basePart _ hmem
  · intro hplain
    unfold locate at h
    split_ifs at h
    rw [Path.dirPart_eq_nil hplain, Path.basePart_eq_self hplain] at h
    obtain ⟨dir, hdir, rfl⟩ := Option.map_eq_some_iff.1 h
    obtain rfl := Option.some.inj hdir
    rfl

theorem stem_append (name : JString) : stem (name ++ lit ".icp") = name := by
  have hlength : (name ++ lit ".icp").length - 4 = name.length := by
    rw [List.length_append]
    exact Nat.add_sub_cancel _ 4
  rw [stem, hlength, List.take_left]

theorem Folders.profileFile_placeOf (F : Folders) (name : JString) :
    F.profileFile (F.placeOf name) = true := by
  simp [profileFile, placeOf]

/-- What a scan finds. -/
theorem mem_scanProfiles {C : Coercions} {F : Folders} {m : Storage} {k : Kept} :
    k ∈ (m.scanProfiles C F).profiles ↔
      ∃ loc, F.profileFile loc = true ∧ k.origin = some loc ∧ m.disk.lookup loc = some k.seen ∧
        F.load C m.disk (stem loc.entry) = some k.profile := by
  simp only [Storage.scanProfiles, List.mem_filterMap, List.mem_filter]
  constructor
  · rintro ⟨loc, ⟨-, hfile⟩, hk⟩
    obtain ⟨p, c, hp, hc, rfl⟩ := Storage.scanned_eq_some.1 hk
    exact ⟨loc, hfile, rfl, hc, hp⟩
  · rintro ⟨loc, hfile, horigin, hc, hp⟩
    refine ⟨loc, ⟨?_, hfile⟩, Storage.scanned_eq_some.2 ⟨k.profile, k.seen, hp, hc, ?_⟩⟩
    · exact AList.mem_keys.1 (AList.lookup_isSome.1 (hc ▸ rfl))
    · rw [← horigin]

/-! ### Imports -/

/-- The profile `p` was imported: there is one file more, which is directly in `virtualkeys` and
has the name of the profile, and one profile more in the list; and a scan finds the profile in
that file, with the same elements. -/
structure ImportedAs (C : Coercions) (F : Folders) (m m' : Storage) (p : Profile) : Prop where
  new : F.placeOf p.name ∉ m.disk
  created : F.placeOf p.name ∈ m'.disk
  others : ∀ loc, loc ≠ F.placeOf p.name → m'.disk.lookup loc = m.disk.lookup loc
  listed : ∃ k : Kept, m'.profiles = m.profiles ++ [k] ∧ k.profile = p
  scanned : ∃ k ∈ (m'.scanProfiles C F).profiles, k.origin = some (F.placeOf p.name) ∧
    k.profile.name = p.name ∧ List.Forall₂ Element.Same p.elements k.profile.elements

/-- An import throws and leaves everything as it was, or the profile is imported. -/
def ImportSafe (C : Coercions) (F : Folders) (m : Storage) (doc : Option Json) : Prop :=
  match m.importProfile C F doc with
  | (none, m') => m' = m
  | (some p, m') => ImportedAs C F m m' p

/-- What can be imported: the name has no separator and no single surrogate, and all elements
last. -/
def Importable (p : Profile) : Prop :=
  separator ∉ p.name ∧ WellFormed p.name ∧ ∀ e ∈ p.elements, e.Lasting

theorem unplaced_imported {C : Coercions} {F : Folders} {m : Storage} {doc : Option Json}
    {p : Profile} (h : m.imported C F doc = some p) : ∀ e ∈ p.elements, e.Unplaced := by
  obtain ⟨j, q, -, hq, hp, -⟩ := Storage.imported_spec h
  rw [hp]
  show ∀ e ∈ q.elements, e.Unplaced
  exact unplaced_fromJSON hq

/-- What a scan makes of the file that was written. -/
theorem load_written {C : Coercions} {F : Folders} {disk : Disk} {p : Profile} {loc : Loc}
    (hopen : p.getFile F = some loc) :
    F.load C (disk.insert loc (.json (p.document none))) p.name =
      Profile.fromJSON C p.name (p.document none) := by
  have hopen : F.openFile p.name = some loc := hopen
  rw [Folders.load, hopen, Option.bind_some, AList.lookup_insert]

theorem importedAs_iff {C : Coercions} {F : Folders} {m : Storage} {p : Profile} {loc : Loc}
    (hp : ∀ e ∈ p.elements, e.Unplaced) (hopen : p.getFile F = some loc)
    (hnew : loc ∉ m.disk) :
    ImportedAs C F m { disk := m.disk.insert loc (.json (p.document none)), profiles :=
        m.profiles ++ [⟨p, some loc, .json (p.document none)⟩] } p ↔ Importable p := by
  have hplace := Folders.locate_eq_placeOf_iff (Folders.locate_of_openFile hopen)
  constructor
  · intro h
    have hloc : loc = F.placeOf p.name := by
      by_contra hne
      rcases (AList.mem_insert _).1 h.created with heq | hmem
      · exact hne heq.symm
      · exact h.new hmem
    refine ⟨hplace.1 hloc, ?_⟩
    obtain ⟨k, hk, horigin, hname, hsame⟩ := h.scanned
    obtain ⟨loc', -, horigin', -, hload⟩ := mem_scanProfiles.1 hk
    obtain rfl := Option.some.inj (horigin.symm.trans horigin')
    rw [Folders.placeOf, stem_append, load_written hopen] at hload
    exact (fromJSON_document_iff hp p.name).1 ⟨k.profile, hload, hname, hsame⟩
  · rintro ⟨hplain, hlast⟩
    obtain rfl := hplace.2 hplain
    obtain ⟨q, hq, hname, hsame⟩ := (fromJSON_document_iff (C := C) hp p.name).2 hlast
    refine ⟨hnew, (AList.mem_insert _).2 (.inl rfl), fun loc hloc => AList.lookup_insert_ne hloc,
      ⟨_, rfl, rfl⟩, ?_⟩
    refine ⟨⟨q, some (F.placeOf p.name), .json (p.document none)⟩, ?_, rfl, hname, hsame⟩
    refine mem_scanProfiles.2
      ⟨_, F.profileFile_placeOf p.name, rfl, AList.lookup_insert _, ?_⟩
    rw [Folders.placeOf, stem_append]
    exact (load_written hopen).trans hq

theorem importSafe_accepted_iff {C : Coercions} {F : Folders} {m : Storage} {doc : Option Json}
    {p : Profile} {loc : Loc} (himported : m.imported C F doc = some p)
    (hopen : p.getFile F = some loc) : ImportSafe C F m doc ↔ Importable p := by
  simp only [ImportSafe, Storage.importProfile, himported, hopen]
  exact importedAs_iff (unplaced_imported himported) hopen
    (Storage.imported_notMem himported hopen)

/-- **Imports**: `importProfile` throws and changes nothing, or it creates one file directly in
`virtualkeys` from which a scan reads the profile again, exactly if the document is not accepted
or its name has no separator and no single surrogate and its elements last. -/
theorem importProfile_safe_iff (C : Coercions) (F : Folders) (m : Storage) (doc : Option Json) :
    ImportSafe C F m doc ↔
      ∀ p loc, m.imported C F doc = some p → p.getFile F = some loc → Importable p := by
  cases himported : m.imported C F doc with
  | none =>
    refine iff_of_true ?_ ?_
    · simp only [ImportSafe, Storage.importProfile, himported]
    · rintro p loc ⟨⟩
  | some p =>
    cases hopen : p.getFile F with
    | none =>
      refine iff_of_true ?_ ?_
      · simp only [ImportSafe, Storage.importProfile, himported, hopen]
      · rintro p' loc ⟨⟩ hloc
        rw [hopen] at hloc
        cases hloc
    | some loc =>
      rw [importSafe_accepted_iff himported hopen]
      constructor
      · rintro h p' loc' ⟨⟩ -
        exact h
      · exact fun h => h p loc rfl hopen

/-- A document with one button, whose name leads out of `virtualkeys`. -/
def escapingDocument : Json :=
  .obj [("name", .str "../evil"), ("elements", .arr [.obj
    [("type", .str "BUTTON"), ("shape", .str "CIRCLE"), ("scale", .num 1), ("x", .num (1 / 2)),
      ("y", .num (1 / 2)), ("toggleSwitch", .bool false), ("bindings", .arr [.str "KEY_A"])]])]

/-- It is written to the directory above. -/
theorem import_escapes :
    ¬ ImportSafe .strict plainFolders { disk := ∅ } (some escapingDocument) := by
  have hread : (Storage.imported .strict { disk := ∅ } plainFolders (some escapingDocument)).map
      Profile.name = some (lit "../evil") := by
    decide +kernel
  obtain ⟨p, hp, hname⟩ := Option.map_eq_some_iff.1 hread
  have hopen : p.getFile plainFolders = some ⟨["files"], "evil.icp"⟩ := by
    rw [Profile.getFile, hname]
    decide +kernel
  rw [importSafe_accepted_iff hp hopen]
  rintro ⟨hplain, -⟩
  rw [hname] at hplain
  exact hplain (by decide)

end TermuxX11.VirtualKeys
