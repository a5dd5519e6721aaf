import Mathlib.Data.Set.Insert
import Mathlib.Tactic.Lemma
import FormChart.Storage.Folder

/-!
# The home folder

A key without slashes has its document right in the home folder, so it is enough to know what stands
there under each name (`Folder.at?`).  Each operation is described by the names that it can reach
(`Folder.Reaches`): a write reaches the document and the temporary file, once there is a home folder
(`Folder.Written`), and a removal reaches the document (`Folder.Removed`).

**A temporary file is never a document** (`Folder.documentName_ne_temporaryOf`), whatever the keys.
-/

namespace FormChart

/-! ## Names right below the root and in the home folder -/

namespace Disk

lemma pathText_singleton (home : String) : pathText [home] = home := by
  simp [pathText]

lemma pathText_pair (home name : String) : pathText [home, name] = home ++ "/" ++ name := by
  simp [pathText]

lemma pathText_ne (home name : String) : pathText [home] ≠ pathText [home, name] := by
  rw [pathText_singleton, pathText_pair]
  intro h
  have hlength := congrArg (fun text => text.toList.length) h
  simp only [String.toList_append, List.length_append] at hlength
  have hslash : "/".toList.length = 1 := by decide
  omega

lemma pathNames_of_not_mem {key : String} (h : '/' ∉ key.toList) : pathNames key = [key] := by
  rw [pathNames, List.splitOn_eq_singleton h]
  simp

lemma not_mem_of_mem_pathNames {text name : String} (h : name ∈ pathNames text) :
    '/' ∉ name.toList := by
  have hsplit : ∀ cs : List Char, ∀ part ∈ cs.splitOn '/', '/' ∉ part := by
    intro cs
    induction cs with
    | nil => simp
    | cons c cs ih =>
        intro part hpart
        rw [List.splitOn_cons_eq_if_modifyHead] at hpart
        split at hpart
        next =>
            rcases List.mem_cons.1 hpart with rfl | hpart
            · exact List.not_mem_nil
            · exact ih part hpart
        next hne =>
            cases hrest : cs.splitOn '/' with
            | nil => simp [hrest] at hpart
            | cons first rest =>
                rw [hrest] at ih hpart
                rcases List.mem_cons.1 hpart with rfl | hpart
                · have hfirst := ih first List.mem_cons_self
                  have hc : '/' ≠ c := fun heq => hne (beq_iff_eq.2 heq.symm)
                  simp [hfirst, hc]
                · exact ih part (List.mem_cons_of_mem _ hpart)
  obtain ⟨part, hpart, rfl⟩ := List.mem_map.1 h
  simpa using hsplit _ part hpart

/-- Names without slashes can be told apart. -/
lemma pathNames_pathText {path : DiskPath} (hne : path ≠ [])
    (hpath : ∀ name ∈ path, '/' ∉ name.toList) : pathNames (pathText path) = path := by
  have hsplit : (pathText path).toList.splitOn '/' = path.map String.toList := by
    rw [pathText, String.toList_intercalate]
    exact List.splitOn_intercalate _ (by simpa using hpath) (by simpa using hne)
  rw [pathNames, hsplit, List.map_map]
  simp

lemma pathText_pathNames (text : String) : pathText (pathNames text) = text := by
  rw [← String.toList_inj, pathText, String.toList_intercalate, pathNames, List.map_map]
  simp [Function.comp_def]

lemma pathNames_pair {home : String} (hhome : '/' ∉ home.toList) (name : String) :
    pathNames (pathText [home, name]) = home :: pathNames name := by
  have hsplit : (home ++ "/" ++ name).toList.splitOn '/' =
      home.toList :: name.toList.splitOn '/' := by
    rw [← List.splitOn_append_cons_self_of_not_mem hhome]
    simp
  rw [pathNames, pathText_pair, hsplit]
  simp [pathNames]

lemma pathNames_ne_nil (text : String) : pathNames text ≠ [] := by
  simp [pathNames, List.splitOn_ne_nil]

end Disk

namespace Folder

/-- Whether a folder can hold a key as a name, with the extensions that it is given. -/
structure IsPlain (key : String) : Prop where
  slash : '/' ∉ key.toList
  null : '\x00' ∉ key.toList
  fits : (key ++ ".json.tmp").utf8ByteSize ≤ Disk.maxNameBytes

/-- Whether a home folder can have a name. -/
structure IsProper (home : String) : Prop where
  slash : '/' ∉ home.toList
  name : home ∉ ["", ".", ".."]
  fits : home.utf8ByteSize ≤ Disk.maxNameBytes

/-- What stands in the home folder under a name. -/
def at? (f : Folder) (name : String) : Option DiskEntry := f.disk.get? [f.home, name]

/-- The name of the temporary file of a key. -/
def temporaryOf (key : String) : String := if key = "" then ".json.json.tmp" else key ++ ".json.tmp"

lemma temporaryName?_eq (key : String) :
    temporaryName? key = if key = "." then none else some (temporaryOf key) := by
  unfold temporaryName? temporaryOf
  split
  · rfl
  · split <;> rfl

/-- **A temporary file is never a document.** -/
lemma documentName_ne_temporaryOf (key key' : String) : documentName key ≠ temporaryOf key' := by
  intro h
  have hlast := congrArg (fun name => name.toList.getLast?) h
  unfold documentName temporaryOf at hlast
  split at hlast <;> simp at hlast

lemma documentName_inj {key key' : String} : documentName key = documentName key' ↔ key = key' := by
  simp [documentName]

namespace IsPlain

variable {key : String} (h : IsPlain key)

include h

lemma isName : isName key = true := by
  simpa [Folder.isName] using h.null

lemma fits_documentName : (documentName key).utf8ByteSize ≤ Disk.maxNameBytes := by
  have hfits := h.fits
  rw [String.utf8ByteSize_append] at hfits
  rw [documentName, String.utf8ByteSize_append]
  exact Nat.le_trans (Nat.add_le_add_left (by decide) _) hfits

lemma fits_temporaryOf : (temporaryOf key).utf8ByteSize ≤ Disk.maxNameBytes := by
  unfold temporaryOf
  split
  · decide
  · exact h.fits

lemma splitKey (f : Folder) : f.splitKey key = ([f.home], key) := by
  have hstarts : key.startsWith "/" = false := by
    rw [String.startsWith_string_eq_false_iff]
    rintro ⟨rest, hrest⟩
    exact h.slash (hrest ▸ by simp)
  simp [Folder.splitKey, Disk.pathNames_of_not_mem h.slash, hstarts]

end IsPlain

/-- The way to a name in the home folder depends on the home folder alone. -/
lemma locate_home {f : Folder} (hhome : IsProper f.home) {name : String}
    (hname : name.utf8ByteSize ≤ Disk.maxNameBytes) :
    f.disk.locate [f.home] name =
      match f.disk.get? [f.home] with
      | some .folder => .ok [f.home, name]
      | some (.file _) => .error .blocked
      | none => .error .missing := by
  have hlong : Disk.isTooLong ([f.home] ++ [name]) = false := by
    have hhomefits : f.home.utf8ByteSize ≤ 255 := hhome.fits
    have hnamefits : name.utf8ByteSize ≤ 255 := hname
    have hslash : "/".utf8ByteSize = 1 := by decide
    rw [Disk.isTooLong, List.singleton_append, Disk.pathText_pair, decide_eq_false_iff_not,
      Nat.not_lt, String.utf8ByteSize_append, String.utf8ByteSize_append, hslash, Disk.maxPathBytes]
    omega
  have hnames := hhome.name
  simp only [List.mem_cons, List.not_mem_nil, or_false, not_or] at hnames
  rw [Disk.locate, hlong]
  simp only [Disk.walk, hnames, if_neg (Nat.not_lt.2 hhome.fits), or_self, if_false]
  cases hentry : f.disk.get? ([] ++ [f.home]) with
  | none =>
      rw [List.nil_append] at hentry
      simp [hentry, bind, Except.bind]
  | some e =>
      rw [List.nil_append] at hentry
      cases e with
      | file content => simp [hentry, bind, Except.bind]
      | folder => simp [hentry, bind, Except.bind, Nat.not_lt.2 hname]

end Folder

/-! ## What an operation reaches -/

lemma Disk.get?_put_home (d : Disk) (home : String) (path : DiskPath) (e : DiskEntry) :
    (d.put path e).get? [home] =
      if pathText [home] = pathText path then some e else d.get? [home] :=
  Dict.get?_insert _ _ _ _

namespace Folder

/-- Puts something into the home folder. -/
def putAt (f : Folder) (name : String) (e : DiskEntry) : Folder :=
  { f with disk := f.disk.put [f.home, name] e }

/-- Deletes something in the home folder. -/
def dropAt (f : Folder) (name : String) : Folder :=
  { f with disk := f.disk.delete [f.home, name] }

section

variable (f : Folder) (name other : String) (e : DiskEntry)

lemma at?_eq : f.at? name = f.disk.entries.get? (f.home ++ "/" ++ name) := by
  rw [← Disk.pathText_pair]
  rfl

lemma at?_putAt : (f.putAt name e).at? other = if other = name then some e else f.at? other := by
  simp [at?_eq, putAt, Disk.put, Disk.pathText_pair]

lemma at?_dropAt : (f.dropAt name).at? other = if other = name then none else f.at? other := by
  simp [at?_eq, dropAt, Disk.delete, Disk.pathText_pair]

lemma get?_home_putAt : (f.putAt name e).disk.get? [f.home] = f.disk.get? [f.home] := by
  rw [putAt, Disk.get?_put_home, if_neg (Disk.pathText_ne _ _)]

lemma get?_home_dropAt : (f.dropAt name).disk.get? [f.home] = f.disk.get? [f.home] := by
  have hdelete := Dict.get?_erase f.disk.entries (Disk.pathText [f.home, name])
    (Disk.pathText [f.home])
  rwa [if_neg (Disk.pathText_ne _ _)] at hdelete

lemma writeFile_home (content : ByteArray) :
    writeFile f.disk [f.home, name] content =
      if f.at? name = some .folder then none else some (f.putAt name (.file content)).disk := rfl

lemma rename_putAt {name other : String} (hne : other ≠ name) (content : ByteArray) :
    rename (f.putAt name (.file content)).disk [f.home, name] [f.home, other] content =
      if f.at? other = some .folder then none else
        some (((f.putAt name (.file content)).dropAt name).putAt other (.file content)).disk := by
  have hother := f.at?_putAt name other (.file content)
  rw [if_neg hne] at hother
  rw [← hother]
  rfl

end

/-- Whether a folder is as before, but for the home folder, which may have been made, and for what
stands there under certain names. -/
structure Reaches (f : Folder) (names : Set String) (f' : Folder) : Prop where
  home : f'.home = f.home
  made : f'.disk.get? [f.home] = f.disk.get? [f.home] ∨
    f.disk.get? [f.home] = none ∧ f'.disk.get? [f.home] = some .folder
  inside : ∀ name ∉ names, f'.at? name = f.at? name
  outside : ∀ text, text ≠ f.home → (∀ name, text ≠ f.home ++ "/" ++ name) →
    f'.disk.entries.get? text = f.disk.entries.get? text

namespace Reaches

variable {f f' f'' : Folder} {names : Set String}

lemma refl (f : Folder) (names : Set String) : f.Reaches names f :=
  ⟨rfl, .inl rfl, fun _ _ => rfl, fun _ _ _ => rfl⟩

lemma mono (h : f.Reaches names f') {more : Set String} (hsub : names ⊆ more) :
    f.Reaches more f' :=
  ⟨h.home, h.made, fun name hname => h.inside name fun hmem => hname (hsub hmem), h.outside⟩

lemma trans (h : f.Reaches names f') (h' : f'.Reaches names f'') : f.Reaches names f'' := by
  obtain ⟨hhome', hmade', hinside', houtside'⟩ := h'
  rw [h.home] at hhome' hmade' houtside'
  refine ⟨hhome', ?_, fun name hname => (hinside' name hname).trans (h.inside name hname),
    fun text hne htext => (houtside' text hne htext).trans (h.outside text hne htext)⟩
  rcases hmade' with hsame | ⟨hnone, hfolder⟩
  · rw [hsame]
    exact h.made
  · rcases h.made with hsame | ⟨-, hmade⟩
    · exact .inr ⟨hsame ▸ hnone, hfolder⟩
    · rw [hnone] at hmade
      cases hmade

lemma putAt (h : f.Reaches names f') {name : String} (hname : name ∈ names) (e : DiskEntry) :
    f.Reaches names (f'.putAt name e) := by
  constructor
  case home => exact h.home
  case made =>
    rw [← h.home, get?_home_putAt, h.home]
    exact h.made
  case inside =>
    intro other hother
    have hne : other ≠ name := fun heq => hother (heq ▸ hname)
    rw [at?_putAt, if_neg hne, h.inside other hother]
  case outside =>
    intro text hhome htext
    rw [← h.outside text hhome htext, Folder.putAt, h.home, Disk.put, Dict.get?_insert,
      Disk.pathText_pair, if_neg (htext name)]

lemma dropAt (h : f.Reaches names f') {name : String} (hname : name ∈ names) :
    f.Reaches names (f'.dropAt name) := by
  constructor
  case home => exact h.home
  case made =>
    rw [← h.home, get?_home_dropAt, h.home]
    exact h.made
  case inside =>
    intro other hother
    have hne : other ≠ name := fun heq => hother (heq ▸ hname)
    rw [at?_dropAt, if_neg hne, h.inside other hother]
  case outside =>
    intro text hhome htext
    rw [← h.outside text hhome htext, Folder.dropAt, h.home, Disk.delete, Dict.get?_erase,
      Disk.pathText_pair, if_neg (htext name)]

end Reaches

variable {f : Folder} {key : String}

/-- The home folder is made, unless a file has its name. -/
lemma makeHome_cases (f : Folder) :
    (∃ content, f.disk.get? [f.home] = some (.file content) ∧ f.makeHome = .error ()) ∨
      ∃ f', f.makeHome = .ok f' ∧ f'.disk.get? [f'.home] = some .folder ∧ f.Reaches ∅ f' := by
  unfold makeHome
  split
  next hfolder => exact .inr ⟨f, rfl, hfolder, .refl f ∅⟩
  next content hfile => exact .inl ⟨content, hfile, rfl⟩
  next hnone =>
      have hmade : (f.disk.put [f.home] .folder).get? [f.home] = some .folder := by
        rw [Disk.get?_put_home, if_pos rfl]
      refine .inr ⟨_, rfl, hmade, rfl, .inr ⟨hnone, hmade⟩, fun name _ => ?_,
        fun text hhome _ => ?_⟩
      · rw [at?_eq, at?_eq, Disk.put, Dict.get?_insert, ← Disk.pathText_pair,
          if_neg (Disk.pathText_ne _ _).symm]
      · rw [Disk.put, Dict.get?_insert, Disk.pathText_singleton, if_neg hhome]

/-- A write, once the home folder is there. -/
lemma write_eq (hkey : IsPlain key) (text : String) {f' : Folder} (hmake : f.makeHome = .ok f')
    (hhome : IsProper f'.home) (hfolder : f'.disk.get? [f'.home] = some .folder) :
    f.write key text =
      if key = "." ∨ f'.at? (temporaryOf key) = some .folder then (.error (.io key), f')
      else if f'.at? (documentName key) = some .folder then
        (.error (.io key), f'.putAt (temporaryOf key) (.file text.toUTF8))
      else
        (.ok (), ((f'.putAt (temporaryOf key) (.file text.toUTF8)).dropAt (temporaryOf key)).putAt
          (documentName key) (.file text.toUTF8)) := by
  rw [write, hmake]
  simp only [hkey.splitKey, hkey.isName, temporaryName?_eq]
  by_cases hdot : key = "."
  · simp only [hdot, if_true, true_or]
  simp only [hdot, if_false, false_or, locate_home hhome hkey.fits_temporaryOf, hfolder,
    locate_home hhome hkey.fits_documentName, writeFile_home]
  by_cases htemporary : f'.at? (temporaryOf key) = some .folder
  · simp only [htemporary, if_true]
  rw [if_neg htemporary, if_neg htemporary]
  dsimp only
  rw [rename_putAt f' (documentName_ne_temporaryOf key key)]
  by_cases hdocument : f'.at? (documentName key) = some .folder
  · rw [if_pos hdocument, if_pos hdocument]
    rfl
  · rw [if_neg hdocument, if_neg hdocument]
    rfl

/-- What comes of a write. -/
inductive Written (f : Folder) (key text : String) : Except StorageError Unit × Folder → Prop
  /-- The key is `.`, a file has the name of the home folder, or a folder that of the temporary
  file. -/
  | refused {f' : Folder} : f.Reaches ∅ f' →
      (key = "." ∨ (∃ content, f.disk.get? [f.home] = some (.file content)) ∨
        f.at? (temporaryOf key) = some .folder) →
      Written f key text (.error (.io key), f')
  /-- There is a temporary file, but a folder has the name of the document. -/
  | unfinished {f' : Folder} : f.Reaches {temporaryOf key} f' →
      f'.disk.get? [f'.home] = some .folder → f.at? (documentName key) = some .folder →
      Written f key text (.error (.io key), f')
  /-- There is a new document. -/
  | done {f' : Folder} : key ≠ "." → f.Reaches {temporaryOf key, documentName key} f' →
      f'.disk.get? [f'.home] = some .folder → f'.at? (temporaryOf key) = none →
      f'.at? (documentName key) = some (.file text.toUTF8) →
      Written f key text (.ok (), f')

lemma write_written (hhome : IsProper f.home) (hkey : IsPlain key) (text : String) :
    Written f key text (f.write key text) := by
  rcases f.makeHome_cases with ⟨content, hfile, hmake⟩ | ⟨f₁, hmake, hfolder, hreaches⟩
  · rw [write, hmake]
    exact .refused (.refl f ∅) (.inr (.inl ⟨content, hfile⟩))
  have hinside : ∀ name, f₁.at? name = f.at? name := fun name =>
    hreaches.inside name (Set.notMem_empty name)
  rw [write_eq hkey text hmake (hreaches.home ▸ hhome) hfolder, hinside, hinside]
  split
  next hrefused => exact .refused hreaches (hrefused.imp_right .inr)
  next hnot =>
      have hput : f.Reaches {temporaryOf key} (f₁.putAt (temporaryOf key) (.file text.toUTF8)) :=
        (hreaches.mono (Set.empty_subset _)).putAt (Set.mem_singleton _) _
      have hhere := get?_home_putAt f₁ (temporaryOf key) (.file text.toUTF8)
      rw [hfolder] at hhere
      split
      next hdocument => exact .unfinished hput hhere hdocument
      next =>
          refine .done (not_or.1 hnot).1
            (((hput.mono (Set.singleton_subset_iff.2 (.inl rfl))).dropAt (.inl rfl)).putAt
              (.inr rfl) _) ((get?_home_putAt _ _ _).trans ((get?_home_dropAt _ _).trans hhere))
            ?_ ?_
          · rw [at?_putAt, if_neg (documentName_ne_temporaryOf key key).symm, at?_dropAt,
              if_pos rfl]
          · rw [at?_putAt, if_pos rfl]

/-- What comes of a removal. -/
inductive Removed (f : Folder) (key : String) : Except StorageError Unit × Folder → Prop
  /-- A file has the name of the home folder, or a folder that of the document. -/
  | refused : (∃ content, f.disk.get? [f.home] = some (.file content)) ∨
      f.at? (documentName key) = some .folder → Removed f key (.error (.io key), f)
  /-- There is no home folder. -/
  | missing : f.disk.get? [f.home] = none → Removed f key (.ok (), f)
  /-- There is no document, or not any more. -/
  | done {f' : Folder} : f.Reaches {documentName key} f' →
      f'.disk.get? [f'.home] = some .folder → f'.at? (documentName key) = none →
      Removed f key (.ok (), f')

lemma remove_removed (hhome : IsProper f.home) (hkey : IsPlain key) :
    Removed f key (f.remove key) := by
  rw [remove, hkey.isName]
  simp only [Bool.not_true, Bool.false_eq_true, if_false, hkey.splitKey,
    locate_home hhome hkey.fits_documentName]
  cases hhere : f.disk.get? [f.home] with
  | none => exact .missing hhere
  | some e =>
      cases e with
      | file content => exact .refused (.inl ⟨content, hhere⟩)
      | folder =>
          dsimp only
          rw [← at?]
          cases hdocument : f.at? (documentName key) with
          | none => exact .done (.refl _ _) hhere hdocument
          | some e =>
              cases e with
              | folder => exact .refused (.inr hdocument)
              | file content =>
                  have hdropped : (f.dropAt (documentName key)).at? (documentName key) = none := by
                    rw [at?_dropAt, if_pos rfl]
                  exact .done ((Reaches.refl f _).dropAt rfl) ((get?_home_dropAt f _).trans hhere)
                    hdropped

/-- What is read of what stands under the name of a document. -/
def readEntry (key : String) : Option DiskEntry → Except StorageError (Option String)
  | none => .ok none
  | some .folder => .error (.io key)
  | some (.file content) =>
    match String.fromUTF8? content with
    | some text => .ok (some text)
    | none => .error (.io key)

lemma read_eq (hhome : IsProper f.home) (hkey : IsPlain key) :
    f.read key =
      match f.disk.get? [f.home] with
      | none => .ok none
      | some (.file _) => .error (.io key)
      | some .folder => readEntry key (f.at? (documentName key)) := by
  rw [read, hkey.isName]
  simp only [Bool.not_true, Bool.false_eq_true, if_false, hkey.splitKey,
    locate_home hhome hkey.fits_documentName]
  cases f.disk.get? [f.home] with
  | none => rfl
  | some e =>
      cases e with
      | file content => rfl
      | folder =>
          dsimp only
          rw [← at?]
          cases f.at? (documentName key) with
          | none => rfl
          | some e =>
              cases e with
              | folder => rfl
              | file content => rfl

lemma readEntry_file (key text : String) :
    readEntry key (some (.file text.toUTF8)) = .ok (some text) := by
  have hvalid : text.toUTF8.IsValidUTF8 := text.isValidUTF8
  simp only [readEntry, String.fromUTF8?, dif_pos hvalid]
  rfl

end Folder

end FormChart
