import CommandSchema.Files.Tree
import Mathlib.Data.List.Nodup
import Mathlib.Logic.Function.Basic
import Mathlib.Tactic.Push

/-!
# What writing leaves of a tree

A write changes the file at one place at most. Directories only become more, and a file never
becomes a directory, so a path that has been written leads to its place ever after.

* `resolve?_eq_place`, `read_eq_text_iff`: a path leads to its place or nowhere.
* `Grows`: what a tree keeps when something is written.
* `file?_write_true`, `file?_write_false`: the files after a write.
* `writeFiles`: writes files one after the other, up to the first that cannot be written;
  `file?_writeFiles`: the files after that.
* `read_writeFiles`: where all files have been written, a path reads as the last one at its place.
* `readsBack_iff`: they all read as they were written exactly if those that share a place have the
  same text.
-/

namespace CommandSchema.Tree

variable {t t' u : Tree} {l k : Location} {path text : String}

/-! ## Ways -/

theorem walk?_eq_foldl {parts : List String} (h : t.walk? l parts = some k) :
    k = parts.foldl step l := by
  induction parts generalizing l with
  | nil => exact (Option.some.inj h).symm
  | cons part rest ih =>
    rw [walk?] at h
    split at h
    · exact ih h
    · cases h

/-- A path leads to its place if it leads anywhere. -/
theorem resolve?_eq_place (h : t.resolve? path = some l) : l = t.place path := by
  rw [resolve?] at h
  split at h
  · exact walk?_eq_foldl h
  · cases h

theorem place_of_working (h : t'.working = t.working) (path : String) :
    t'.place path = t.place path := by
  rw [place, place, start, start, h]

/-! ## Files -/

/-- There is a file at a place. -/
def IsFile (t : Tree) (l : Location) : Prop := t.isDirectory l = false ∧ (t.file? l).isSome

/-- A text is read from a path exactly if the path leads to its place and the text is there. -/
theorem read_eq_text_iff : t.read path = .text text ↔
    t.resolve? path = some (t.place path) ∧ t.isDirectory (t.place path) = false ∧
      t.file? (t.place path) = some (.text text) := by
  unfold read
  cases hr : t.resolve? path with
  | none => simp
  | some l =>
    obtain rfl := resolve?_eq_place hr
    cases hd : t.isDirectory (t.place path)
    · rcases hf : t.file? (t.place path) with _ | _ | _ | _ <;> simp [hd, hf]
    · simp [hd]

/-! ## Growth -/

/-- The second tree has every directory and every file of the first one; the files may hold
something else. -/
structure Grows (t t' : Tree) : Prop where
  working : t'.working = t.working
  isDirectory : ∀ l, t.isDirectory l = true → t'.isDirectory l = true
  isFile : ∀ l, t.IsFile l → t'.IsFile l

theorem Grows.refl (t : Tree) : t.Grows t := ⟨rfl, fun _ h => h, fun _ h => h⟩

theorem Grows.trans (h : t.Grows t') (h' : t'.Grows u) : t.Grows u where
  working := h'.working.trans h.working
  isDirectory l hl := h'.isDirectory l (h.isDirectory l hl)
  isFile l hl := h'.isFile l (h.isFile l hl)

/-- A path leads where it led before. -/
theorem Grows.resolve? (h : t.Grows t') (hr : t.resolve? path = some l) :
    t'.resolve? path = some l := by
  have hwalk : ∀ {parts l k}, t.walk? l parts = some k → t'.walk? l parts = some k := by
    intro parts
    induction parts with
    | nil => exact fun h => h
    | cons part rest ih =>
      intro l k hw
      rw [walk?] at hw ⊢
      split at hw
      · next hd => rw [if_pos (h.isDirectory l hd), ih hw]
      · cases hw
  rw [Tree.resolve?] at hr ⊢
  split at hr
  · next hu => rw [if_pos hu, start, h.working, ← start, hwalk hr]
  · cases hr

/-! ## Making directories -/

theorem makeDirectory?_cases (h : t.makeDirectory? l = some t') :
    t' = t ∨ t.file? l = none ∧ t' = { t with directories := l :: t.directories } := by
  rw [makeDirectory?] at h
  split at h
  · exact .inl (Option.some.inj h).symm
  · split at h
    · cases h
    · next hf =>
      rw [Bool.or_eq_true, not_or, Option.not_isSome_iff_eq_none] at hf
      exact .inr ⟨hf.1, (Option.some.inj h).symm⟩

theorem grows_makeDirectory? (h : t.makeDirectory? l = some t') : t.Grows t' := by
  obtain rfl | ⟨hf, rfl⟩ := makeDirectory?_cases h
  · exact .refl _
  · refine ⟨rfl, fun k hk => ?_, fun k hk => ⟨?_, hk.2⟩⟩
    · rw [Tree.isDirectory, Bool.or_eq_true] at hk ⊢
      exact hk.imp id fun hm => by simp_all
    · -- the new directory is at a place without a file
      have hne : k ≠ l := by
        rintro rfl
        have hsome := hk.2
        rw [hf] at hsome
        cases hsome
      have hd := hk.1
      simp_all [Tree.isDirectory]

theorem file?_makeDirectory? (h : t.makeDirectory? l = some t') : t'.file? = t.file? := by
  obtain rfl | ⟨-, rfl⟩ := makeDirectory?_cases h <;> rfl

theorem grows_makeDirectories (t : Tree) (l : Location) (parts : List String) :
    t.Grows (t.makeDirectories l parts).2 := by
  induction parts generalizing t l with
  | nil => exact .refl t
  | cons part rest ih =>
    rw [makeDirectories]
    split
    · exact .refl t
    · next t' h => exact (grows_makeDirectory? h).trans (ih t' _)

theorem file?_makeDirectories (t : Tree) (l : Location) (parts : List String) :
    (t.makeDirectories l parts).2.file? = t.file? := by
  induction parts generalizing t l with
  | nil => rfl
  | cons part rest ih =>
    rw [makeDirectories]
    split
    · rfl
    · next t' h => rw [ih t', file?_makeDirectory? h]

theorem grows_makeParents (t : Tree) (path : String) : t.Grows (t.makeParents path).2 := by
  rw [makeParents]
  split
  · exact .refl t
  · split
    · exact grows_makeDirectories t _ _
    · exact .refl t

theorem file?_makeParents (t : Tree) (path : String) :
    (t.makeParents path).2.file? = t.file? := by
  rw [makeParents]
  split
  · rfl
  · split
    · exact file?_makeDirectories t _ _
    · rfl

/-! ## Putting a file -/

theorem lookup_filter_of_ne (files : List (Location × Content)) (h : k ≠ l) :
    (files.filter (·.1 != l)).lookup k = files.lookup k := by
  induction files with
  | nil => rfl
  | cons f files ih =>
    by_cases hf : f.1 = l
    · have hk : (k == f.1) = false := beq_false_of_ne (hf ▸ h)
      rw [List.filter_cons_of_neg (by simp [hf]), ih, List.lookup_cons, hk]
    · rw [List.filter_cons_of_pos (by simpa using hf), List.lookup_cons, List.lookup_cons, ih]

/-- A file is put at the place of its path, where no directory may be. -/
theorem putAt?_cases (h : t.putAt? path text = some t') :
    t.resolve? path = some (t.place path) ∧ t.isDirectory (t.place path) = false ∧
      t' = { t with
        files := (t.place path, .text text) :: t.files.filter (·.1 != t.place path) } := by
  rw [putAt?, Option.bind_eq_bind, Option.bind_eq_some_iff] at h
  obtain ⟨l, hr, h⟩ := h
  obtain rfl := resolve?_eq_place hr
  split at h
  · rw [putFile?] at h
    split at h
    · cases h
    · next hd =>
      rw [Bool.or_eq_true, Bool.or_eq_true, not_or, not_or, Bool.not_eq_true] at hd
      exact ⟨hr, hd.1.1, (Option.some.inj h).symm⟩
  · cases h

theorem file?_putAt? (h : t.putAt? path text = some t') :
    t'.file? = Function.update t.file? (t.place path) (some (.text text)) := by
  obtain ⟨-, -, rfl⟩ := putAt?_cases h
  funext k
  by_cases hk : k = t.place path
  · rw [hk, Function.update_self, Tree.file?, List.lookup_cons_self]
  · rw [Function.update_of_ne hk, Tree.file?, List.lookup_cons, beq_false_of_ne hk,
      lookup_filter_of_ne _ hk]
    rfl

theorem isDirectory_putAt? (h : t.putAt? path text = some t') (l : Location) :
    t'.isDirectory l = t.isDirectory l := by
  obtain ⟨-, -, rfl⟩ := putAt?_cases h
  rfl

theorem grows_putAt? (h : t.putAt? path text = some t') : t.Grows t' := by
  have hworking : t'.working = t.working := by
    obtain ⟨-, -, rfl⟩ := putAt?_cases h
    rfl
  have hdirectory := isDirectory_putAt? h
  refine ⟨hworking, fun l hl => (hdirectory l).trans hl, fun l hl =>
    ⟨(hdirectory l).trans hl.1, ?_⟩⟩
  rw [file?_putAt? h, Function.update_apply]
  split
  · rfl
  · exact hl.2

/-! ## Writing a file -/

theorem write_true (h : t.write path text = (true, t')) :
    (t.makeParents path).2.putAt? path text = some t' := by
  rw [write] at h
  split at h
  · cases h
  · next u hp =>
    split at h
    · cases h
    · next v hv => rw [hp, hv, (Prod.mk.inj h).2]

theorem write_false (h : t.write path text = (false, t')) : t' = (t.makeParents path).2 := by
  rw [write] at h
  split at h
  · next u hp => rw [hp, (Prod.mk.inj h).2]
  · next u hp =>
    split at h
    · rw [hp, (Prod.mk.inj h).2]
    · cases h

/-- A write keeps all directories and files, whether it can be done or not. -/
theorem grows_write (t : Tree) (path text : String) : t.Grows (t.write path text).2 := by
  rcases h : t.write path text with ⟨_ | _, t'⟩
  · show t.Grows t'
    rw [write_false h]
    exact grows_makeParents t path
  · exact (grows_makeParents t path).trans (grows_putAt? (write_true h))

/-- A write that can be done puts its text at the place of its path and changes no other file. -/
theorem file?_write_true (h : t.write path text = (true, t')) :
    t'.file? = Function.update t.file? (t.place path) (some (.text text)) := by
  rw [file?_putAt? (write_true h), file?_makeParents,
    place_of_working (grows_makeParents t path).working]

/-- A write that cannot be done changes no file. -/
theorem file?_write_false (h : t.write path text = (false, t')) : t'.file? = t.file? := by
  rw [write_false h, file?_makeParents]

/-- A path that has been written leads to its place, and a file is there. -/
theorem isFile_of_write (h : t.write path text = (true, t')) :
    t'.resolve? path = some (t.place path) ∧ t'.IsFile (t.place path) := by
  have hput := write_true h
  obtain ⟨hr, hd, -⟩ := putAt?_cases hput
  rw [place_of_working (grows_makeParents t path).working] at hr hd
  refine ⟨(grows_putAt? hput).resolve? hr, ?_, ?_⟩
  · rw [isDirectory_putAt? hput, hd]
  · rw [file?_write_true h, Function.update_self]
    rfl

/-! ## Writing files -/

/-- The places of files that are named by their paths. -/
def located (t : Tree) (files : List (String × String)) : List (Location × String) :=
  files.map fun f => (t.place f.1, f.2)

/-- Files after texts have been put at places, one after the other. -/
def overwritten (files : Location → Option Content) (writes : List (Location × String)) :
    Location → Option Content :=
  writes.foldl (fun files w => Function.update files w.1 (some (.text w.2))) files

theorem overwritten_cons (files : Location → Option Content) (w : Location × String)
    (writes : List (Location × String)) : overwritten files (w :: writes) =
      overwritten (Function.update files w.1 (some (.text w.2))) writes := rfl

/-- Writes files one after the other, up to the first that cannot be written, and counts those that
have been written. -/
def writeFiles (t : Tree) : List (String × String) → Nat × Tree
  | [] => (0, t)
  | (path, text) :: files =>
    match t.write path text with
    | (false, t) => (0, t)
    | (true, t) => ((t.writeFiles files).1 + 1, (t.writeFiles files).2)

theorem located_of_working (h : t'.working = t.working) (files : List (String × String)) :
    t'.located files = t.located files := by
  simp only [located, place_of_working h]

section

variable {f : String × String}

theorem writeFiles_cons_of_false (h : t.write f.1 f.2 = (false, u))
    (files : List (String × String)) : t.writeFiles (f :: files) = (0, u) := by
  rw [writeFiles, h]

theorem writeFiles_cons_of_true (h : t.write f.1 f.2 = (true, u))
    (files : List (String × String)) :
    t.writeFiles (f :: files) = ((u.writeFiles files).1 + 1, (u.writeFiles files).2) := by
  rw [writeFiles, h]

end

theorem writeFiles_le (t : Tree) (files : List (String × String)) :
    (t.writeFiles files).1 ≤ files.length := by
  induction files generalizing t with
  | nil => exact Nat.le_refl 0
  | cons f files ih =>
    rcases h : t.write f.1 f.2 with ⟨_ | _, u⟩
    · rw [writeFiles_cons_of_false h]
      exact Nat.zero_le _
    · rw [writeFiles_cons_of_true h]
      exact Nat.succ_le_succ (ih u)

theorem grows_writeFiles (t : Tree) (files : List (String × String)) :
    t.Grows (t.writeFiles files).2 := by
  induction files generalizing t with
  | nil => exact .refl t
  | cons f files ih =>
    have hgrows := grows_write t f.1 f.2
    rcases h : t.write f.1 f.2 with ⟨_ | _, u⟩
    · rw [writeFiles_cons_of_false h]
      rwa [h] at hgrows
    · rw [writeFiles_cons_of_true h]
      rw [h] at hgrows
      exact hgrows.trans (ih u)

/-- The files are those before, overwritten by those that have been written, in their order. -/
theorem file?_writeFiles (t : Tree) (files : List (String × String)) :
    (t.writeFiles files).2.file? =
      overwritten t.file? (t.located (files.take (t.writeFiles files).1)) := by
  induction files generalizing t with
  | nil => rfl
  | cons f files ih =>
    rcases h : t.write f.1 f.2 with ⟨_ | _, u⟩
    · simp only [writeFiles_cons_of_false h, List.take_zero]
      exact file?_write_false h
    · have hworking : u.working = t.working := by
        have hgrows := grows_write t f.1 f.2
        rw [h] at hgrows
        exact hgrows.working
      rw [writeFiles_cons_of_true h]
      simp only [List.take_succ_cons]
      rw [ih u, file?_write_true h, located_of_working hworking]
      rfl

/-- Where all files have been written, every path leads to its place, and a file is there. -/
theorem isFile_of_writeFiles {files : List (String × String)}
    (h : (t.writeFiles files).1 = files.length) {f : String × String} (hf : f ∈ files) :
    (t.writeFiles files).2.resolve? f.1 = some (t.place f.1) ∧
      (t.writeFiles files).2.IsFile (t.place f.1) := by
  induction files generalizing t with
  | nil => cases hf
  | cons g files ih =>
    rcases hg : t.write g.1 g.2 with ⟨_ | _, u⟩
    · rw [writeFiles_cons_of_false hg] at h
      exact absurd h (Nat.succ_ne_zero _).symm
    · rw [writeFiles_cons_of_true hg] at h ⊢
      obtain rfl | hf := List.mem_cons.1 hf
      -- later writes keep the way to the file and the file itself, whatever it holds then
      · obtain ⟨hr, hfile⟩ := isFile_of_write hg
        have hgrows := grows_writeFiles u files
        exact ⟨hgrows.resolve? hr, hgrows.isFile _ hfile⟩
      · have hgrows := grows_write t g.1 g.2
        rw [hg] at hgrows
        rw [← place_of_working hgrows.working]
        exact ih (Nat.succ.inj h) hf

/-! ## Reading back -/

/-- A place that nothing is put at keeps what it holds. -/
theorem overwritten_of_forall_ne {files : Location → Option Content}
    {writes : List (Location × String)} (h : ∀ w ∈ writes, w.1 ≠ l) :
    overwritten files writes l = files l := by
  induction writes generalizing files with
  | nil => rfl
  | cons w writes ih =>
    rw [overwritten_cons, ih fun v hv => h v (List.mem_cons_of_mem _ hv),
      Function.update_of_ne (h w List.mem_cons_self).symm]

/-- A place holds the text that has been put there last. -/
theorem overwritten_last (files : Location → Option Content) (front : List (Location × String))
    (w : Location × String) {back : List (Location × String)} (h : ∀ v ∈ back, v.1 ≠ w.1) :
    overwritten files (front ++ w :: back) w.1 = some (.text w.2) := by
  rw [overwritten, List.foldl_append, ← overwritten, ← overwritten, overwritten_cons,
    overwritten_of_forall_ne h, Function.update_self]

/-- The file is the last one at a place. -/
def IsLast (t : Tree) (files : List (String × String)) (l : Location) (f : String × String) :
    Prop :=
  ∃ front back, files = front ++ f :: back ∧ t.place f.1 = l ∧ ∀ g ∈ back, t.place g.1 ≠ l

theorem exists_isLast {files : List (String × String)} (h : ∃ f ∈ files, t.place f.1 = l) :
    ∃ f, t.IsLast files l f := by
  induction files with
  | nil => simp at h
  | cons g files ih =>
    by_cases hlater : ∃ f ∈ files, t.place f.1 = l
    · obtain ⟨f, front, back, hfiles, hlast⟩ := ih hlater
      exact ⟨f, g :: front, back, by rw [hfiles, List.cons_append], hlast⟩
    · push Not at hlater
      obtain ⟨f, hf, hl⟩ := h
      obtain rfl | hf := List.mem_cons.1 hf
      · exact ⟨f, [], files, rfl, hl, hlater⟩
      · exact absurd hl (hlater f hf)

theorem IsLast.mem {files : List (String × String)} {f : String × String}
    (h : t.IsLast files l f) : f ∈ files := by
  obtain ⟨front, back, rfl, -⟩ := h
  exact List.mem_append_right _ List.mem_cons_self

/-- Where all files have been written, each path reads as the last file at its place. -/
theorem read_writeFiles {files : List (String × String)}
    (h : (t.writeFiles files).1 = files.length) {f g : String × String} (hf : f ∈ files)
    (hg : t.IsLast files (t.place f.1) g) : (t.writeFiles files).2.read f.1 = .text g.2 := by
  have hplace := place_of_working (grows_writeFiles t files).working
  obtain ⟨hr, hfile⟩ := isFile_of_writeFiles h hf
  obtain ⟨front, back, hfiles, hl, hback⟩ := hg
  rw [read_eq_text_iff, hplace]
  refine ⟨hr, hfile.1, ?_⟩
  rw [file?_writeFiles, h, List.take_length, hfiles, ← hl, located, List.map_append, List.map_cons]
  refine overwritten_last _ _ (t.place g.1, g.2) fun v hv => ?_
  obtain ⟨k, hk, rfl⟩ := List.mem_map.1 hv
  rw [hl]
  exact hback k hk

/-- Every file reads as it is given. -/
def ReadsBack (t : Tree) (files : List (String × String)) : Prop :=
  ∀ f ∈ files, t.read f.1 = .text f.2

/-- Files that share a place have the same text. -/
def Agree (t : Tree) (files : List (String × String)) : Prop :=
  ∀ f ∈ files, ∀ g ∈ files, t.place f.1 = t.place g.1 → f.2 = g.2

/-- Files that have all been written read as they were written exactly if those that share a place
have the same text. -/
theorem readsBack_iff {files : List (String × String)}
    (h : (t.writeFiles files).1 = files.length) :
    (t.writeFiles files).2.ReadsBack files ↔ t.Agree files := by
  constructor
  -- both files read as the last one at their place
  · intro hback f hf g hg he
    obtain ⟨last, hlast⟩ := exists_isLast ⟨f, hf, rfl⟩
    have hf' := (hback f hf).symm.trans (read_writeFiles h hf hlast)
    rw [he] at hlast
    have hg' := (hback g hg).symm.trans (read_writeFiles h hg hlast)
    exact ReadResult.text.inj (hf'.trans hg'.symm)
  · intro hagree f hf
    obtain ⟨last, hlast⟩ := exists_isLast ⟨f, hf, rfl⟩
    have hplace : t.place last.1 = t.place f.1 := by
      obtain ⟨-, -, -, hl, -⟩ := hlast
      exact hl
    rw [read_writeFiles h hf hlast, hagree f hf last hlast.mem hplace.symm]

/-- Files with different texts agree exactly if no two of them share a place. -/
theorem agree_iff_nodup {files : List (String × String)} (h : (files.map (·.2)).Nodup) :
    t.Agree files ↔ (files.map fun f => t.place f.1).Nodup := by
  have hfiles : files.Nodup := h.of_map
  rw [List.nodup_map_iff_inj_on hfiles]
  have hinj := (List.nodup_map_iff_inj_on hfiles).1 h
  exact ⟨fun hagree f hf g hg he => hinj f hf g hg (hagree f hf g hg he),
    fun hplaces f hf g hg he => congrArg (·.2) (hplaces f hf g hg he)⟩

end CommandSchema.Tree
