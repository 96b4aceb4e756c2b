import TermuxX11.Lib.Run
import TermuxX11.VirtualKeys.Storage

/-!
# Profiles and their own files

`getFile` of a profile is the file that the path of its display name leads to, each time anew.
The display name comes from an argument (`createProfile`, `renameProfile`), from a name under
which there was no file (`importProfile`), or from the document itself (`scanProfiles`,
`duplicateProfile`), and nothing compares the place it leads to with those of the other profiles.

The state is the manager with all files, and the folders, which grow by what `mkdirs` makes.
-/

namespace TermuxX11.VirtualKeys

open Java Run

/-- The manager, and the folders at this moment. -/
structure Manager where
  storage : Storage
  folders : Folders

namespace Manager

/-- Each listed profile's file is the one it was loaded from, copied to or created as, and no two
have the same. -/
structure Owned (t : Manager) : Prop where
  own : ∀ l ∈ t.storage.profiles,
    ∃ loc, l.origin = some loc ∧ l.profile.getFile t.folders = some loc
  distinct : (t.storage.profiles.map fun l => l.profile.getFile t.folders).Nodup

end Manager

/-- An operation of the manager, and what `mkdirs` achieves in it. -/
structure ManagerOp where
  op : StorageOp
  mkdirs : Mkdirs

namespace ManagerOp

/-- The folders after the operation. -/
def folders (t : Manager) (o : ManagerOp) : Folders :=
  match o.op.saved t.storage with
  | some name => o.mkdirs.make t.folders t.storage.disk name
  | none => t.folders

/-- One operation. -/
def step (C : Coercions) (t : Manager) (o : ManagerOp) : Manager :=
  { storage := o.op.step C o.mkdirs t.folders t.storage
    folders := o.folders t }

/-- The name in the document, or `name` where it has none, leads to `loc`. -/
def Names (C : Coercions) (F : Folders) (name : JString) (j : Json) (loc : Loc) : Prop :=
  ∀ json, j.toObject = some json → F.openFile (JSONObject.optString C json "name" name) = some loc

/-- No listed profile has the file at `loc`, but perhaps the one at index `i`. -/
def Unlisted (t : Manager) (i : Option ℕ) (loc : Loc) : Prop :=
  ∀ k l, t.storage.profiles[k]? = some l → some k ≠ i → l.profile.getFile t.folders ≠ some loc

/-- A name is given only where it leads to a file that no other listed profile has, and a document
is read only where it names its own file. -/
def Careful (C : Coercions) (t : Manager) (o : ManagerOp) : Prop :=
  match o.op with
  | .scanProfiles =>
    ∀ loc j, loc ∈ t.storage.disk → t.folders.profileFile loc = true →
      (t.folders.openFile (stem loc.entry)).bind t.storage.disk.lookup = some (.json j) →
      (Profile.fromJSON C (stem loc.entry) j).isSome → Names C t.folders (stem loc.entry) j loc
  | .createProfile name =>
    ∃ loc, (o.folders t).openFile name = some loc ∧ Unlisted t none loc
  | .duplicateProfile i newName =>
    ∀ source loc j, t.storage.profiles[i]? = some source →
      t.folders.copyFile source.profile.name newName t.storage.disk = some (loc, .json j) →
      (Profile.fromJSON C newName j).isSome →
      Names C t.folders newName j loc ∧ Unlisted t none loc
  | .renameProfile i newName =>
    ∀ l, t.storage.profiles[i]? = some l →
      ∃ loc, (o.folders t).openFile newName = some loc ∧ Unlisted t (some i) loc
  | .deleteProfile _ => True
  | .importProfile _ => True

end ManagerOp

/-! ### Every profile has a file of its own -/

/-- Every listed profile has its own file, which is there. -/
structure Identified (F : Folders) (m : Storage) : Prop where
  own : ∀ l ∈ m.profiles, ∃ loc ∈ m.disk, l.origin = some loc ∧ l.profile.getFile F = some loc
  distinct : (m.profiles.map Kept.origin).Nodup

section

variable {C : Coercions} {M : Mkdirs} {F F' : Folders} {m : Storage} {disk : Disk} {i : ℕ}

/-- The file of a document that names it. -/
theorem getFile_of_names {name : JString} {j : Json} {p : Profile} {loc : Loc}
    (hp : Profile.fromJSON C name j = some p) (hn : ManagerOp.Names C F name j loc) :
    p.getFile F = some loc := by
  obtain ⟨json, -, -, hjson, -, -, -, hname, -⟩ := fromJSON_spec hp
  rw [Profile.getFile, hname]
  exact hn json hjson

theorem Identified.origin_eq (h : Identified F m) {l : Kept} (hl : l ∈ m.profiles) :
    l.origin = l.profile.getFile F := by
  obtain ⟨loc, -, horigin, hfile⟩ := h.own l hl
  rw [horigin, hfile]

theorem Identified.owned (h : Identified F m) : Manager.Owned ⟨m, F⟩ := by
  refine ⟨fun l hl => ?_, ?_⟩
  · obtain ⟨loc, -, hloc⟩ := h.own l hl
    exact ⟨loc, hloc⟩
  · have hmap : (m.profiles.map fun l => l.profile.getFile F) = m.profiles.map Kept.origin :=
      List.map_congr_left fun l hl => (h.origin_eq hl).symm
    rw [hmap]
    exact h.distinct

theorem Identified.origin_ne (h : Identified F m) {k : ℕ} {l l' : Kept}
    (hi : m.profiles[i]? = some l) (hk : m.profiles[k]? = some l') (hne : k ≠ i) :
    l'.origin ≠ l.origin := by
  intro heq
  have hlt : k < (m.profiles.map Kept.origin).length := by
    rw [List.length_map]
    exact (List.getElem?_eq_some_iff.1 hk).1
  refine hne ((List.getElem?_inj hlt h.distinct).1 ?_)
  rw [List.getElem?_map, List.getElem?_map, hi, hk, Option.map_some, Option.map_some, heq]

/-- Files are written, and directories are made. -/
theorem Identified.grow (h : Identified F m) (disk : Disk)
    (hF : ∀ n loc, F.openFile n = some loc → loc ∈ m.disk → F'.openFile n = some loc)
    (hdisk : ∀ loc ∈ m.disk, loc ∈ disk) :
    Identified F' { disk := disk, profiles := m.profiles } := by
  refine ⟨fun l hl => ?_, h.distinct⟩
  obtain ⟨loc, hmem, horigin, hfile⟩ := h.own l hl
  exact ⟨loc, hdisk loc hmem, horigin, hF _ loc hfile hmem⟩

/-- A profile is listed with a file that no other has. -/
theorem Identified.add (h : Identified F m) {l : Kept} {loc : Loc} (hmem : loc ∈ m.disk)
    (horigin : l.origin = some loc) (hfile : l.profile.getFile F = some loc)
    (hnew : ∀ l' ∈ m.profiles, l'.origin ≠ some loc) :
    Identified F { disk := m.disk, profiles := m.profiles ++ [l] } := by
  constructor
  · intro l' hl'
    rcases List.mem_append.1 hl' with hl' | hl'
    · exact h.own l' hl'
    · rw [List.mem_singleton.1 hl']
      exact ⟨loc, hmem, horigin, hfile⟩
  · show ((m.profiles ++ [l]).map Kept.origin).Nodup
    rw [List.map_append, List.nodup_append]
    refine ⟨h.distinct, List.nodup_singleton _, ?_⟩
    intro a ha b hb
    obtain ⟨l', hl', rfl⟩ := List.mem_map.1 ha
    rw [List.mem_singleton.1 hb, horigin]
    exact hnew l' hl'

/-- The listed profiles are among those that `Unlisted` speaks of. -/
theorem Identified.origin_ne_of_unlisted (h : Identified F m) {loc : Loc}
    (hnew : ManagerOp.Unlisted ⟨m, F⟩ none loc) : ∀ l ∈ m.profiles, l.origin ≠ some loc := by
  intro l hl
  obtain ⟨k, hk⟩ := List.mem_iff_getElem?.1 hl
  rw [h.origin_eq hl]
  exact hnew k l hk nofun

/-! ### One operation -/

theorem identified_scanProfiles {o : ManagerOp} (ho : o.op = .scanProfiles)
    (hc : o.Careful C ⟨m, F⟩) : Identified F (m.scanProfiles C F) := by
  unfold ManagerOp.Careful at hc
  rw [ho] at hc
  constructor
  · intro l hl
    obtain ⟨loc, hloc, hl⟩ := List.mem_filterMap.1 hl
    obtain ⟨hkey, hfile⟩ := List.mem_filter.1 hloc
    have hmem : loc ∈ m.disk := AList.mem_keys.2 hkey
    obtain ⟨p, content, hp, -, rfl⟩ := Storage.scanned_eq_some.1 hl
    obtain ⟨loc', j, hopen, hlookup, hread⟩ := Folders.load_spec hp
    refine ⟨loc, hmem, rfl, getFile_of_names hread (hc loc j hmem hfile ?_ ?_)⟩
    · rw [hopen]
      exact hlookup
    · rw [hread]
      rfl
  · -- the origins are the places of the files, those that cannot be read left out
    unfold Storage.scanProfiles
    rw [List.map_filterMap]
    refine (m.disk.nodupKeys.filter _).filterMap fun a a' b ha ha' => ?_
    have hsome {loc : Loc} (hb : b ∈ (m.scanned C F loc).map Kept.origin) : b = some loc := by
      obtain ⟨l, hl, rfl⟩ := Option.map_eq_some_iff.1 hb
      obtain ⟨p, content, -, -, rfl⟩ := Storage.scanned_eq_some.1 hl
      rfl
    exact Option.some.inj ((hsome ha).symm.trans (hsome ha'))

theorem identified_deleteProfile (h : Identified F m) (i : ℕ) :
    Identified F (m.deleteProfile F i) := by
  unfold Storage.deleteProfile
  cases hi : m.profiles[i]? with
  | none => exact h
  | some l =>
    have hsub := List.eraseIdx_sublist m.profiles i
    refine ⟨fun l' hl' => ?_, h.distinct.sublist (hsub.map _)⟩
    obtain ⟨k, hne, hk⟩ := List.mem_eraseIdx_iff_getElem?.1 hl'
    obtain ⟨loc, hmem, horigin, hfile⟩ := h.own l' (hsub.subset hl')
    refine ⟨loc, ?_, horigin, hfile⟩
    have horigin_l := h.origin_eq (List.mem_of_getElem? hi)
    have hother := h.origin_ne hi hk hne
    dsimp only
    cases hold : l.profile.getFile F with
    | none => exact hmem
    | some old =>
      refine AList.mem_erase.2 ⟨fun heq => hother ?_, hmem⟩
      rw [horigin, horigin_l, hold, heq]

theorem identified_createProfile (h : Identified F m) {name : JString} {loc : Loc}
    (hopen : (M.make F m.disk name).openFile name = some loc)
    (hnew : ManagerOp.Unlisted ⟨m, F⟩ none loc) :
    Identified (M.make F m.disk name) (m.createProfile M F name) := by
  have hfile : ({ name := name } : Profile).getFile (M.make F m.disk name) = some loc := hopen
  have hgrow := h.grow (m.disk.insert loc (.json (Profile.document none { name := name })))
    (fun n loc hn hmem => M.opens F m.disk name n loc hn (.inr hmem))
    fun loc' hmem => (AList.mem_insert _).2 (.inr hmem)
  simp only [Storage.createProfile, Folders.save, hfile]
  exact hgrow.add ((AList.mem_insert _).2 (.inl rfl)) rfl hfile (h.origin_ne_of_unlisted hnew)

theorem identified_duplicateProfile (h : Identified F m) {o : ManagerOp} {newName : JString}
    (ho : o.op = .duplicateProfile i newName) (hc : o.Careful C ⟨m, F⟩) :
    Identified F (m.duplicateProfile C F i newName) := by
  unfold ManagerOp.Careful at hc
  rw [ho] at hc
  unfold Storage.duplicateProfile
  cases hi : m.profiles[i]? with
  | none => exact h
  | some source =>
    dsimp only
    cases hcopy : F.copyFile source.profile.name newName m.disk with
    | none => exact h
    | some w =>
      obtain ⟨loc, content⟩ := w
      have hgrow := h.grow (m.disk.insert loc content) (fun _ _ hn _ => hn)
        fun loc' hmem => (AList.mem_insert _).2 (.inr hmem)
      dsimp only
      cases hload : F.load C (m.disk.insert loc content) newName with
      | none => exact hgrow
      | some p =>
        -- what was loaded is the copy
        obtain ⟨loc', j, hopen, hlookup, hread⟩ := Folders.load_spec hload
        have hdst := Folders.openFile_of_copyFile hcopy
        obtain rfl := Option.some.inj (hdst.symm.trans hopen)
        rw [AList.lookup_insert, Option.some.injEq] at hlookup
        subst hlookup
        obtain ⟨hn, hnew⟩ := hc source loc j hi hcopy (by rw [hread]; rfl)
        exact hgrow.add ((AList.mem_insert _).2 (.inl rfl)) rfl (getFile_of_names hread hn)
          (h.origin_ne_of_unlisted hnew)

theorem identified_importProfile (h : Identified F m) (doc : Option Json) :
    Identified F (m.importProfile C F doc).2 := by
  unfold Storage.importProfile
  cases himported : m.imported C F doc with
  | none => exact h
  | some p =>
    dsimp only
    cases hfile : p.getFile F with
    | none => exact h
    | some loc =>
      have hfresh := Storage.imported_notMem himported hfile
      have hgrow := h.grow (m.disk.insert loc (.json (p.document none)))
        (fun _ _ hn _ => hn) fun loc' hmem => (AList.mem_insert _).2 (.inr hmem)
      refine hgrow.add ((AList.mem_insert _).2 (.inl rfl)) rfl hfile fun l hl heq => hfresh ?_
      obtain ⟨loc', hmem, horigin, -⟩ := h.own l hl
      obtain rfl := Option.some.inj (heq.symm.trans horigin)
      exact hmem

theorem mem_renameTo {old new : JString} {loc : Loc} (hloc : loc ∈ disk)
    (hne : F.openFile old ≠ some loc) : loc ∈ F.renameTo old new disk := by
  unfold Folders.renameTo
  cases ho : F.openFile old with
  | none => exact hloc
  | some o =>
    cases F.openFile new with
    | none => exact hloc
    | some n =>
      dsimp only
      cases disk.lookup o with
      | none => exact hloc
      | some content =>
        refine (AList.mem_insert _).2 (.inr (AList.mem_erase.2 ⟨?_, hloc⟩))
        rintro rfl
        exact hne ho

theorem identified_renameProfile (h : Identified F m) {l : Kept} {newName : JString} {loc : Loc}
    (hi : m.profiles[i]? = some l) (hopen : (M.make F m.disk newName).openFile newName = some loc)
    (hnew : ManagerOp.Unlisted ⟨m, F⟩ (some i) loc) :
    Identified (M.make F m.disk newName) (m.renameProfile M F i newName) := by
  have hfile : (l.profile.setName newName).getFile (M.make F m.disk newName) = some loc := hopen
  simp only [Storage.renameProfile, hi, Folders.save, hfile, Option.some_or]
  set k : Kept := ⟨l.profile.setName newName, some loc, _⟩
  -- the other profiles keep their files
  have hother : ∀ l' ∈ m.profiles.set i k, l' = k ∨ ∃ n, m.profiles[n]? = some l' ∧ n ≠ i := by
    intro l' hl'
    obtain ⟨n, hn⟩ := List.mem_iff_getElem?.1 hl'
    rw [List.getElem?_set] at hn
    split_ifs at hn with hin hlt
    · exact .inl (Option.some.inj hn).symm
    · exact .inr ⟨n, hn, Ne.symm hin⟩
  constructor
  · intro l' hl'
    rcases hother l' hl' with rfl | ⟨n, hn, hne⟩
    · exact ⟨loc, (AList.mem_insert _).2 (.inl rfl), rfl, hfile⟩
    · obtain ⟨loc', hmem, horigin, hfile'⟩ := h.own l' (List.mem_of_getElem? hn)
      refine ⟨loc', (AList.mem_insert _).2 (.inr (mem_renameTo hmem fun hold => ?_)), horigin,
        M.opens F m.disk newName _ loc' hfile' (.inr hmem)⟩
      refine h.origin_ne hi hn hne ?_
      rw [horigin, h.origin_eq (List.mem_of_getElem? hi)]
      exact hold.symm
  · show ((m.profiles.set i k).map Kept.origin).Nodup
    rw [List.map_set]
    by_cases hsame : l.origin = some loc
    · -- the profile keeps its file
      have hget : (m.profiles.map Kept.origin)[i]? = some (some loc) := by
        rw [List.getElem?_map, hi, Option.map_some, hsame]
      obtain ⟨hlt, hval⟩ := List.getElem?_eq_some_iff.1 hget
      show ((m.profiles.map Kept.origin).set i (some loc)).Nodup
      rw [← hval, List.set_getElem_self]
      exact h.distinct
    · refine h.distinct.set fun hmem => ?_
      obtain ⟨l', hl', horigin⟩ := List.mem_map.1 hmem
      have horigin : l'.origin = some loc := horigin
      obtain ⟨n, hn⟩ := List.mem_iff_getElem?.1 hl'
      by_cases hin : n = i
      · rw [hin, hi, Option.some.injEq] at hn
        rw [← hn] at horigin
        exact hsame horigin
      · refine hnew n l' hn (fun heq => hin (Option.some.inj heq)) ?_
        rw [← horigin]
        exact (h.origin_eq hl').symm

/-- **A careful operation keeps profiles and files together.** -/
theorem Identified.step (h : Identified F m) {o : ManagerOp} (hc : o.Careful C ⟨m, F⟩) :
    Identified (o.step C ⟨m, F⟩).folders (o.step C ⟨m, F⟩).storage := by
  obtain ⟨op, M⟩ := o
  cases op with
  | scanProfiles => exact identified_scanProfiles (o := ⟨.scanProfiles, M⟩) rfl hc
  | createProfile name =>
    obtain ⟨loc, hopen, hnew⟩ := hc
    exact identified_createProfile h hopen hnew
  | duplicateProfile i newName =>
    exact identified_duplicateProfile h (o := ⟨.duplicateProfile i newName, M⟩) rfl hc
  | renameProfile i newName =>
    simp only [ManagerOp.step, ManagerOp.folders, StorageOp.saved, StorageOp.step]
    simp only [ManagerOp.Careful, ManagerOp.folders, StorageOp.saved] at hc
    cases hi : m.profiles[i]? with
    | none =>
      simp only [Storage.renameProfile, hi]
      exact h
    | some l =>
      obtain ⟨loc, hopen, hnew⟩ := hc l hi
      rw [hi] at hopen
      exact identified_renameProfile h hi hopen hnew
  | deleteProfile i => exact identified_deleteProfile h i
  | importProfile doc => exact identified_importProfile h doc

end

/-- **Careful runs keep profiles and files together**: whatever the files and folders at the
beginning, every listed profile's file is the one it was loaded from, copied to or created as, and
no two have the same. -/
theorem ownFile_of_careful {C : Coercions} (disk : Disk) (F : Folders) {ops : List ManagerOp}
    (h : Always (ManagerOp.step C) (fun t o => o.Careful C t) ⟨{ disk := disk }, F⟩ ops) :
    (exec (ManagerOp.step C) ⟨{ disk := disk }, F⟩ ops).Owned := by
  have hstart : Identified F { disk := disk } := ⟨nofun, List.nodup_nil⟩
  have hend := exec_invariant_of_always (I := fun t : Manager => Identified t.folders t.storage)
    (fun t o ht hc => ht.step hc) hstart h
  exact hend.owned

/-- The file is found, and another profile is created. -/
theorem ownFile_of_careful_create :
    (exec (ManagerOp.step .strict) ⟨{ disk := emptyProfile }, plainFolders⟩
      [⟨.scanProfiles, .none⟩, ⟨.createProfile "b", .none⟩]).Owned := by
  refine ownFile_of_careful emptyProfile plainFolders ⟨?_, ?_, trivial⟩
  · intro loc j hmem _ hlookup _ json hjson
    rcases (AList.mem_insert _).1 hmem with rfl | hmem
    · have hopen : plainFolders.openFile (stem (lit "a.icp")) =
          some ⟨["files", "virtualkeys"], "a.icp"⟩ := by
        decide +kernel
      rw [hopen, Option.bind_some, emptyProfile, AList.lookup_insert] at hlookup
      cases hlookup
      cases hjson
      decide +kernel
    · exact absurd hmem (AList.notMem_empty _)
  · refine ⟨⟨["files", "virtualkeys"], "b.icp"⟩, by decide +kernel, fun k l hk _ => ?_⟩
    have hfiles : ∀ l ∈ (Storage.scanProfiles .strict { disk := emptyProfile }
        plainFolders).profiles, l.profile.getFile plainFolders ≠
          some ⟨["files", "virtualkeys"], "b.icp"⟩ := by
      decide +kernel
    exact hfiles l (List.mem_of_getElem? hk)

/-- The copy of `a` is listed with the file of `a`. -/
theorem duplicateProfile_shares_file :
    ¬ (exec (ManagerOp.step .strict) ⟨{ disk := emptyProfile }, plainFolders⟩
      [⟨.scanProfiles, .none⟩, ⟨.duplicateProfile 0 "b", .none⟩]).Owned := by
  intro h
  have hshared : ¬ ((exec (ManagerOp.step .strict) ⟨{ disk := emptyProfile }, plainFolders⟩
      [⟨.scanProfiles, .none⟩, ⟨.duplicateProfile 0 "b", .none⟩]).storage.profiles.map
        fun l => l.profile.getFile plainFolders).Nodup := by
    decide +kernel
  exact hshared h.distinct

end TermuxX11.VirtualKeys
