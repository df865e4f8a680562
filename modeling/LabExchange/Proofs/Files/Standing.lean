import LabExchange.Files
import Mathlib.Data.List.Basic

/-!
# What stands where

Directories that are made and files that are written leave all other directories and files where
they are, so that a path goes on leading where it led. The place that a path can lead to shows from
its text alone.
-/
namespace LabExchange

theorem bind_eq_ok {ε α β : Type} {x : Except ε α} {f : α → Except ε β} {b : β} :
    x.bind f = .ok b ↔ ∃ a, x = .ok a ∧ f a = .ok b := by
  cases x <;> simp [Except.bind]

/-- What passes a check has not been refused by it. -/
theorem refuse_eq_ok {ε α : Type} {c : Prop} [Decidable c] {e : ε} {x : Except ε α} {a : α} :
    (if c then .error e else x) = .ok a ↔ ¬c ∧ x = .ok a := by
  by_cases h : c <;> simp [h]

namespace FileNode

/-- The text of a file. A directory has none. -/
def content? : FileNode → Option String
  | file content => some content
  | directory _ => none

/-- What a place shows: nothing at all, the text of a file, or a directory, which has no text. -/
def shown? (node : FileNode) (place : Location) : Option (Option String) :=
  (node.at? place).map content?

variable {node new : FileNode} {name other : String} {p q : Location} {x : Option String}

theorem shown?_nil (node : FileNode) : node.shown? [] = some node.content? := rfl

theorem shown?_cons (node : FileNode) (name : String) (rest : Location) :
    node.shown? (name :: rest) = (node.child? name).bind (·.shown? rest) := by
  rw [shown?, at?]
  cases node.child? name <;> rfl

theorem child?_setEntry (entries : List (String × FileNode)) :
    (directory (setEntry name new entries)).child? other =
      if other = name then some new else (directory entries).child? other := by
  simp only [child?]
  induction entries with
  | nil => by_cases h : other = name <;> simp [setEntry, h, Ne.symm]
  | cons entry rest ih =>
    by_cases hname : entry.1 = name
    · by_cases h : other = name
      · simp [setEntry, hname, h]
      · simp [setEntry, hname, h, Ne.symm h]
    · by_cases hentry : entry.1 = other
      · have h : other ≠ name := fun heq => hname (hentry.trans heq)
        simp [setEntry, hentry, h]
      · simpa [setEntry, hname, hentry] using ih

theorem put_cons (entries : List (String × FileNode)) (rest : Location) :
    (directory entries).put new (name :: rest) =
      directory (setEntry name ((((directory entries).child? name).getD empty).put new rest)
        entries) := rfl

/-- Where something stands, the new node is put. -/
theorem at?_put_of_shown? (h : node.shown? p = some x) : (node.put new p).at? p = some new := by
  induction p generalizing node with
  | nil => rfl
  | cons name rest ih =>
    rw [shown?_cons] at h
    obtain ⟨child, hchild, hrest⟩ := Option.bind_eq_some_iff.mp h
    cases node with
    | file content => simp [child?] at hchild
    | directory entries =>
      rw [put_cons, hchild, at?, child?_setEntry, if_pos rfl]
      exact ih hrest

/-- In a directory the new node is put under its name. -/
theorem at?_put_of_directory (h : node.shown? p = some none) :
    (node.put new (p ++ [name])).at? (p ++ [name]) = some new := by
  induction p generalizing node with
  | nil =>
    cases node with
    | file content => simp [shown?_nil, content?] at h
    | directory entries => rw [List.nil_append, put_cons, at?, child?_setEntry, if_pos rfl]; rfl
  | cons first rest ih =>
    rw [shown?_cons] at h
    obtain ⟨child, hchild, hrest⟩ := Option.bind_eq_some_iff.mp h
    cases node with
    | file content => simp [child?] at hchild
    | directory entries =>
      rw [List.cons_append, put_cons, hchild, at?, child?_setEntry, if_pos rfl]
      exact ih hrest

/-- All other places show what they showed, unless a directory is replaced. -/
theorem shown?_put_of_ne (hp : node.shown? p ≠ some none) (hq : q ≠ p)
    (h : node.shown? q = some x) : (node.put new p).shown? q = some x := by
  induction p generalizing node q with
  | nil =>
    obtain ⟨first, rest, rfl⟩ := List.exists_cons_of_ne_nil hq
    cases node with
    | file content => simp [shown?_cons, child?] at h
    | directory entries => exact absurd rfl hp
  | cons name rest ih =>
    cases node with
    | file content => exact h
    | directory entries =>
      cases q with
      | nil => exact h
      | cons first others =>
        rw [shown?_cons] at h hp ⊢
        rw [put_cons, child?_setEntry]
        by_cases hfirst : first = name
        · subst hfirst
          obtain ⟨child, hchild, hothers⟩ := Option.bind_eq_some_iff.mp h
          rw [hchild, Option.bind_some] at hp
          rw [if_pos rfl, hchild, Option.getD_some, Option.bind_some]
          exact ih hp (fun heq => hq (heq ▸ rfl)) hothers
        · rwa [if_neg hfirst]

end FileNode

/-- The place that a name leads to from another one, if it leads anywhere. -/
def Location.onward (place : Location) (name : String) : Location :=
  if name = "." then place else if name = ".." then place.dropLast else place ++ [name]

namespace Files

def shown? (files : Files) (place : Location) : Option (Option String) := files.root.shown? place

/-- The place that a path leads to, if it leads anywhere. -/
def locate (files : Files) (path : String) : Location :=
  (Path.names path).foldl Location.onward (files.start path)

variable {files files' before middle after : Files} {but more : List Location}
  {place place' : Location} {path name text content : String}

theorem hasDirectory_iff : files.hasDirectory place = true ↔ files.shown? place = some none := by
  change (files.at? place).any _ = true ↔ (files.at? place).map _ = _
  match files.at? place with
  | none | some (.file _) | some (.directory _) => simp [FileNode.isDirectory, FileNode.content?]

theorem shown?_eq_file : files.shown? place = some (some text) ↔
    files.at? place = some (.file text) := by
  change (files.at? place).map _ = _ ↔ _
  match files.at? place with
  | none | some (.file _) | some (.directory _) => simp [FileNode.content?]

/-! ## Places of paths -/

theorem isNone_at? (files : Files) (place : Location) :
    (files.at? place).isNone = !(files.shown? place).isSome := by
  rw [← Option.not_isSome, shown?, FileNode.shown?, Option.isSome_map]
  rfl

/-- A step goes on from a directory, by points or under a name that is there. -/
theorem step_eq_ok : files.step place name = .ok place' ↔
    files.hasDirectory place = true ∧
      (isPoints name = true ∨ name.utf8ByteSize ≤ Path.longestName ∧
        (files.shown? (place.onward name)).isSome = true) ∧ place.onward name = place' := by
  by_cases hdirectory : files.hasDirectory place = true
  · by_cases hpoints : isPoints name = true
    · rcases (by simpa [isPoints] using hpoints : name = "." ∨ name = ".." ) with rfl | rfl <;>
        simp [step, Location.onward, hdirectory, hpoints]
    · obtain ⟨hone, htwo⟩ : name ≠ "." ∧ name ≠ ".." := by simpa [isPoints] using hpoints
      have honward : place.onward name = place ++ [name] := by
        rw [Location.onward, if_neg hone, if_neg htwo]
      by_cases hlong : Path.longestName < name.utf8ByteSize
      · simp [step, hdirectory, hpoints, hone, htwo, hlong, Nat.not_le.mpr hlong]
      · by_cases hthere : (files.shown? (place ++ [name])).isSome = true
        · simp [step, honward, hdirectory, hone, htwo, hlong, isNone_at?, hthere,
            Nat.not_lt.mp hlong]
        · simp [step, honward, hdirectory, hpoints, hone, htwo, hlong, isNone_at?, hthere]
  · simp [step, hdirectory]

theorem walk_cons (names : List String) :
    files.walk place (name :: names) = (files.step place name).bind (files.walk · names) := by
  rw [walk, List.foldlM_cons]
  rfl

theorem walk_concat (names : List String) :
    files.walk place (names ++ [name]) = (files.walk place names).bind (files.step · name) := by
  simp only [walk, List.foldlM_append, List.foldlM_cons, List.foldlM_nil, bind_pure]
  rfl

theorem walk_eq_ok {names : List String} (h : files.walk place names = .ok place') :
    names.foldl Location.onward place = place' := by
  induction names generalizing place with
  | nil => exact Except.ok.inj h
  | cons name rest ih =>
    obtain ⟨next, hstep, hrest⟩ := bind_eq_ok.mp (walk_cons rest ▸ h)
    obtain ⟨-, -, rfl⟩ := step_eq_ok.mp hstep
    exact ih hrest

theorem resolve_eq_ok : files.resolve path = .ok place ↔
    fault? path = none ∧ files.walk (files.start path) (Path.names path) = .ok place ∧
      (Path.endsInSlash path = true → files.hasDirectory place = true) := by
  unfold resolve
  cases fault? path with
  | some e => simp
  | none =>
    simp only [bind_eq_ok, refuse_eq_ok, Bool.and_eq_true, Bool.not_eq_true', not_and,
      Bool.not_eq_false, Except.ok.injEq, true_and]
    constructor
    · rintro ⟨found, hwalk, hslash, rfl⟩
      exact ⟨hwalk, hslash⟩
    · rintro ⟨hwalk, hslash⟩
      exact ⟨place, hwalk, hslash, rfl⟩

theorem locate_of_resolve (h : files.resolve path = .ok place) : files.locate path = place :=
  walk_eq_ok (resolve_eq_ok.mp h).2.1

/-- A target is the last name of a path, in the directory that the names before it lead to. -/
theorem walk_of_target (h : files.target path = .ok (place, some name)) :
    ∃ above, Path.names path = above ++ [name] ∧ isPoints name = false ∧ fault? path = none ∧
      files.walk (files.start path) above = .ok place ∧ files.hasDirectory place = true := by
  unfold target at h
  split at h
  · exact absurd h (by nofun)
  · next hfault =>
    obtain ⟨directory, hwalk, h⟩ := bind_eq_ok.mp h
    obtain ⟨hdirectory, h⟩ := refuse_eq_ok.mp h
    obtain ⟨rfl, hname⟩ := Prod.mk.inj (Except.ok.inj h)
    obtain ⟨hlast, hpoints⟩ := Option.filter_eq_some_iff.mp hname
    exact ⟨_, (List.dropLast_append_getLast? name hlast).symm, by simpa using hpoints, hfault,
      hwalk, by simpa using hdirectory⟩

/-- A target is a name in a directory that is there. -/
theorem target_eq_ok (h : files.target path = .ok (place, some name)) :
    files.hasDirectory place = true ∧ files.locate path = place ++ [name] := by
  obtain ⟨above, hnames, hpoints, -, hwalk, hdirectory⟩ := walk_of_target h
  obtain ⟨hone, htwo⟩ : name ≠ "." ∧ name ≠ ".." := by simpa [isPoints] using hpoints
  refine ⟨hdirectory, ?_⟩
  rw [locate, hnames, List.foldl_append, walk_eq_ok hwalk, List.foldl_cons, List.foldl_nil,
    Location.onward, if_neg hone, if_neg htwo]

/-! ## Reading and writing -/

theorem read_eq_ok : files.read path = .ok text ↔
    files.resolve path = .ok (files.locate path) ∧
      files.shown? (files.locate path) = some (some text) := by
  rw [shown?_eq_file]
  constructor
  · intro h
    obtain ⟨place, hresolve, h⟩ := bind_eq_ok.mp h
    rw [locate_of_resolve hresolve]
    refine ⟨hresolve, ?_⟩
    split at h
    · next content hcontent => rwa [← Except.ok.inj h]
    · exact absurd h (by nofun)
    · exact absurd h (by nofun)
  · rintro ⟨hresolve, hfile⟩
    refine bind_eq_ok.mpr ⟨_, hresolve, ?_⟩
    rw [hfile]

theorem read_of_walk {names : List String} (place : Location) (hfault : fault? path = none)
    (hends : Path.endsInSlash path = false) (hnames : Path.names path = names)
    (hwalk : files.walk (files.start path) names = .ok place)
    (hfile : files.at? place = some (.file text)) : files.read path = .ok text := by
  have hresolve : files.resolve path = .ok place :=
    resolve_eq_ok.mpr ⟨hfault, by rwa [hnames], by simp [hends]⟩
  exact bind_eq_ok.mpr ⟨place, hresolve, by rw [hfile]⟩

theorem exists?_of_read (hread : files.read path = .ok text) : files.exists? path = true := by
  rw [exists?, (read_eq_ok.mp hread).1]
  rfl

/-- The file that a path leads to is also its target, if the path ends in a name. -/
theorem target_of_read {above : List String} (hnames : Path.names path = above ++ [name])
    (hpoints : isPoints name = false) (hread : files.read path = .ok text) :
    ∃ place, files.target path = .ok (place, some name) ∧ Path.endsInSlash path = false ∧
      name.utf8ByteSize ≤ Path.longestName ∧ files.hasDirectory (place ++ [name]) = false := by
  obtain ⟨hresolve, hshown⟩ := read_eq_ok.mp hread
  obtain ⟨hfault, hwalk, hslash⟩ := resolve_eq_ok.mp hresolve
  have hfile : files.hasDirectory (files.locate path) = false := by
    rw [← Bool.not_eq_true, hasDirectory_iff, hshown]
    nofun
  obtain ⟨place, habove, hstep⟩ := bind_eq_ok.mp (walk_concat above ▸ hnames ▸ hwalk)
  obtain ⟨hdirectory, hname, honward⟩ := step_eq_ok.mp hstep
  have htarget : files.target path = .ok (place, some name) := by
    simp only [target, hfault, hnames, List.dropLast_concat, List.getLast?_concat]
    refine bind_eq_ok.mpr ⟨place, habove, ?_⟩
    simp [hdirectory, hpoints]
  refine ⟨place, htarget, ?_, ?_, ?_⟩
  · by_contra hends
    exact Bool.false_ne_true (hfile.symm.trans (hslash (by simpa using hends)))
  · exact (hname.resolve_left (by simp [hpoints])).1
  · rw [← (target_eq_ok htarget).2]
    exact hfile

theorem exists_write_of_read {above : List String} (hnames : Path.names path = above ++ [name])
    (hpoints : isPoints name = false) (hread : files.read path = .ok text) (content : String) :
    ∃ files', files.write path content = .ok files' := by
  obtain ⟨place, htarget, hends, hshort, hfree⟩ := target_of_read hnames hpoints hread
  refine ⟨files.put (place ++ [name]) (.file content), bind_eq_ok.mpr ⟨_, htarget, ?_⟩⟩
  simp only [hends, hfree, Nat.not_lt.mpr hshort, Bool.false_eq_true, if_false]

theorem exists_replace_of_read {above : List String} (hnames : Path.names path = above ++ [name])
    (hpoints : isPoints name = false) (hread : files.read path = .ok text) (content : String) :
    ∃ files', files.replace path content = .ok files' := by
  obtain ⟨place, htarget, hends, hshort, hfree⟩ := target_of_read hnames hpoints hread
  have hzero : ¬path.toList.contains '\x00' = true := by
    intro hzero
    have hfault := (resolve_eq_ok.mp (read_eq_ok.mp hread).1).1
    rw [fault?, if_pos hzero] at hfault
    exact absurd hfault (by nofun)
  refine ⟨files.put (place ++ [name]) (.file content),
    refuse_eq_ok.mpr ⟨hzero, bind_eq_ok.mpr ⟨_, htarget, ?_⟩⟩⟩
  simp only [hends, hfree, Nat.not_lt.mpr hshort, Bool.false_eq_true, if_false]

/-- A file has been put at the place of a path, in a directory and in no directory's place. -/
structure Places (files : Files) (path content : String) (files' : Files) : Prop where
  put : files' = files.put (files.locate path) (.file content)
  free : files.hasDirectory (files.locate path) = false
  shown : files'.shown? (files.locate path) = some (some content)

theorem places_put (h : files.target path = .ok (place, some name))
    (hfree : ¬files.hasDirectory (place ++ [name]) = true) :
    files.Places path content (files.put (place ++ [name]) (.file content)) := by
  obtain ⟨hdirectory, hlocate⟩ := target_eq_ok h
  refine ⟨by rw [hlocate], by rwa [hlocate, ← Bool.not_eq_true], ?_⟩
  rw [hlocate]
  exact congrArg (Option.map FileNode.content?)
    (FileNode.at?_put_of_directory (hasDirectory_iff.mp hdirectory))

theorem places_of_write (h : files.write path content = .ok files') :
    files.Places path content files' := by
  obtain ⟨⟨place, name⟩, htarget, h⟩ := bind_eq_ok.mp h
  cases name with
  | none => exact absurd h (by nofun)
  | some name =>
    simp only [refuse_eq_ok] at h
    obtain ⟨-, -, hfree, h⟩ := h
    obtain rfl := Except.ok.inj h
    exact places_put htarget hfree

theorem places_of_replace (h : files.replace path content = .ok files') :
    files.Places path content files' := by
  obtain ⟨-, h⟩ := refuse_eq_ok.mp h
  obtain ⟨⟨place, name⟩, htarget, h⟩ := bind_eq_ok.mp h
  cases name with
  | none => exact absurd h (by nofun)
  | some name =>
    simp only [refuse_eq_ok] at h
    obtain ⟨-, -, hfree, h⟩ := h
    obtain rfl := Except.ok.inj h
    exact places_put htarget hfree

/-! ## What stays -/

/-- All directories and files are still there, the files with their texts but for some places. -/
structure Persist (but : List Location) (before after : Files) : Prop where
  current : after.current = before.current
  stands : ∀ place x, before.shown? place = some x →
    ∃ y, after.shown? place = some y ∧ y.isSome = x.isSome ∧ (place ∉ but → y = x)

namespace Persist

theorem refl (but : List Location) (files : Files) : Persist but files files :=
  ⟨rfl, fun _ x h => ⟨x, h, rfl, fun _ => rfl⟩⟩

theorem trans (h : Persist but before middle) (h' : Persist but middle after) :
    Persist but before after := by
  refine ⟨h'.current.trans h.current, fun place x hx => ?_⟩
  obtain ⟨y, hy, hkind, hsame⟩ := h.stands place x hx
  obtain ⟨z, hz, hkind', hsame'⟩ := h'.stands place y hy
  exact ⟨z, hz, hkind'.trans hkind, fun hmem => (hsame' hmem).trans (hsame hmem)⟩

theorem mono (h : Persist but before after) (hmore : but ⊆ more) : Persist more before after :=
  ⟨h.current, fun place x hx =>
    (h.stands place x hx).imp fun _ hy => ⟨hy.1, hy.2.1, fun hmem => hy.2.2 (mt (@hmore _) hmem)⟩⟩

theorem hasDirectory (h : Persist but before after) (hplace : before.hasDirectory place = true) :
    after.hasDirectory place = true := by
  obtain ⟨y, hy, hkind, -⟩ := h.stands place none (hasDirectory_iff.mp hplace)
  cases y with
  | none => exact hasDirectory_iff.mpr hy
  | some text => simp at hkind

theorem isSome_shown? (h : Persist but before after)
    (hplace : (before.shown? place).isSome = true) : (after.shown? place).isSome = true := by
  obtain ⟨x, hx⟩ := Option.isSome_iff_exists.mp hplace
  obtain ⟨y, hy, -⟩ := h.stands place x hx
  rw [hy]
  rfl

theorem start (h : Persist but before after) (path : String) :
    after.start path = before.start path := by
  rw [Files.start, Files.start, h.current]

theorem locate (h : Persist but before after) (path : String) :
    after.locate path = before.locate path := by
  rw [Files.locate, Files.locate, h.start]

theorem walk (h : Persist but before after) {names : List String}
    (hwalk : before.walk place names = .ok place') : after.walk place names = .ok place' := by
  induction names generalizing place with
  | nil => exact hwalk
  | cons name rest ih =>
    rw [walk_cons] at hwalk ⊢
    obtain ⟨next, hstep, hrest⟩ := bind_eq_ok.mp hwalk
    obtain ⟨hdirectory, hthere, heq⟩ := step_eq_ok.mp hstep
    refine bind_eq_ok.mpr ⟨next, step_eq_ok.mpr ⟨h.hasDirectory hdirectory, ?_, heq⟩, ih hrest⟩
    exact hthere.imp_right fun hname => ⟨hname.1, h.isSome_shown? hname.2⟩

/-- A path leads where it led. -/
theorem resolve (h : Persist but before after) (hpath : before.resolve path = .ok place) :
    after.resolve path = .ok place := by
  obtain ⟨hfault, hplace, hslash⟩ := resolve_eq_ok.mp hpath
  refine resolve_eq_ok.mpr ⟨hfault, ?_, fun hends => h.hasDirectory (hslash hends)⟩
  rw [h.start]
  exact h.walk hplace

/-- A file has its text, unless it stands at one of the places. -/
theorem read (h : Persist but before after) (hpath : before.locate path ∉ but)
    (hread : before.read path = .ok text) : after.read path = .ok text := by
  obtain ⟨hresolve, hshown⟩ := read_eq_ok.mp hread
  obtain ⟨y, hy, -, hsame⟩ := h.stands _ _ hshown
  rw [read_eq_ok, h.locate, hy, hsame hpath]
  exact ⟨h.resolve hresolve, rfl⟩

end Persist

/-- A node may be put where nothing stands, and a file in place of another one. -/
theorem persist_put {node : FileNode} (hfree : files.shown? place ≠ some none)
    (hnode : (files.shown? place).isSome = true → node.content?.isSome = true ∧ place ∈ but) :
    Persist but files (files.put place node) := by
  refine ⟨rfl, fun other x hx => ?_⟩
  by_cases hother : other = place
  · subst hother
    obtain ⟨hkind, hmem⟩ := hnode (by rw [hx]; rfl)
    refine ⟨node.content?, congrArg (Option.map FileNode.content?) (FileNode.at?_put_of_shown? hx),
      ?_, fun hnot => absurd hmem hnot⟩
    rw [hx] at hfree
    cases x with
    | none => exact absurd rfl hfree
    | some text => exact hkind
  · exact ⟨x, FileNode.shown?_put_of_ne hfree hother hx, rfl, fun _ => rfl⟩

theorem Places.persist (h : files.Places path content files') :
    Persist [files.locate path] files files' := by
  rw [h.put]
  refine persist_put (fun hshown => ?_) fun _ => ⟨rfl, List.mem_singleton_self _⟩
  rw [← hasDirectory_iff, h.free] at hshown
  exact Bool.noConfusion hshown

/-- A path that led to a file leads to the one that has been put in its place. -/
theorem Places.read (h : files.Places path content files')
    (hread : files.read path = .ok text) : files'.read path = .ok content := by
  rw [read_eq_ok, h.persist.locate]
  exact ⟨h.persist.resolve (read_eq_ok.mp hread).1, h.shown⟩

/-- A file that has been written is read back, whether or not the path led to one before. -/
theorem read_of_write (h : files.write path content = .ok files') :
    files'.read path = .ok content := by
  have hplaces := places_of_write h
  obtain ⟨⟨place, name⟩, htarget, h⟩ := bind_eq_ok.mp h
  cases name with
  | none => exact absurd h (by nofun)
  | some name =>
    simp only [refuse_eq_ok] at h
    obtain ⟨hends, hlong, -, -⟩ := h
    obtain ⟨above, hnames, -, hfault, hwalk, hdirectory⟩ := walk_of_target htarget
    have hlocate : files'.locate path = place.onward name := by
      rw [hplaces.persist.locate, locate, hnames, List.foldl_append, walk_eq_ok hwalk]
      rfl
    have hshown := hplaces.shown
    rw [← hplaces.persist.locate] at hshown
    have hlast : files'.step place name = .ok (files'.locate path) :=
      step_eq_ok.mpr ⟨hplaces.persist.hasDirectory hdirectory,
        .inr ⟨Nat.not_lt.mp hlong, by rw [← hlocate, hshown]; rfl⟩, hlocate.symm⟩
    have hresolve : files'.resolve path = .ok (files'.locate path) := by
      refine resolve_eq_ok.mpr ⟨hfault, ?_, fun h => absurd h hends⟩
      rw [hnames, walk_concat, hplaces.persist.start]
      exact bind_eq_ok.mpr ⟨place, hplaces.persist.walk hwalk, hlast⟩
    exact read_eq_ok.mpr ⟨hresolve, hshown⟩

theorem places_appendAt (hread : files.read path = .ok text) (more : String) :
    files.Places path (text ++ more) (files.appendAt (files.locate path) more) := by
  have hshown := (read_eq_ok.mp hread).2
  have hput : files.appendAt (files.locate path) more =
      files.put (files.locate path) (.file (text ++ more)) := by
    rw [appendAt, shown?_eq_file.mp hshown]
  refine ⟨hput, ?_, ?_⟩
  · rw [← Bool.not_eq_true, hasDirectory_iff, hshown]
    nofun
  · rw [hput]
    exact congrArg (Option.map FileNode.content?) (FileNode.at?_put_of_shown? hshown)

theorem persist_appendAt (files : Files) (place : Location) (text : String) :
    Persist [place] files (files.appendAt place text) := by
  unfold appendAt
  split
  · next content hcontent =>
    have hshown := shown?_eq_file.mpr hcontent
    exact persist_put (by simp [hshown]) fun _ => ⟨rfl, List.mem_singleton_self _⟩
  · exact .refl _ files

theorem persist_makeAlong (files : Files) (made : Bool) (place : Location) (names : List String) :
    Persist [] files (files.makeAlong made place names).2 := by
  induction names generalizing files made place with
  | nil => exact .refl _ files
  | cons name rest ih =>
    unfold makeAlong
    split
    · exact ih files made place
    · split
      · exact ih files made place.dropLast
      · split
        · exact .refl _ files
        · split
          · exact ih files made (place ++ [name])
          · exact .refl _ files
          · next hnone =>
            split
            · exact .refl _ files
            · have hshown : files.shown? (place ++ [name]) = none :=
                congrArg (Option.map FileNode.content?) hnone
              exact (persist_put (by simp [hshown]) (by simp [hshown])).trans (ih _ true _)

theorem persist_makeDirectory (files : Files) (path : String) :
    Persist [] files (files.makeDirectory path).2 := by
  unfold makeDirectory
  split
  · exact .refl _ files
  · split
    · exact .refl _ files
    · exact persist_makeAlong files false _ _

end Files
end LabExchange
