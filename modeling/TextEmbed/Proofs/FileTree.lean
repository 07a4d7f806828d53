import TextEmbed.FileTree

/-!
# What changes in file trees

A file that is created and filled is the only node that changes, and what it held before makes no
difference to what it holds then.

## Main results

* `FileTree.node?_put`: what is at a location when a node has been put into a tree;
* `FileTree.exists_of_target_eq_ok`: where files can be created;
* `FileTree.of_create_eq_ok`: creating a file empties it;
* `FileTree.node?_truncate` and `FileTree.node?_fill`: emptying or filling a file changes nothing
  else, and neither does emptying or filling whatever there is (`FileTree.node?_truncate_of_ne`,
  `FileTree.node?_fill_of_ne`);
* `FileTree.source_congr`: what reading from a location gives is a matter of its node.
-/

namespace TextEmbed

section

variable {ε α : Type}

/-- Where a sequence of steps succeeds, so does each of them. -/
theorem exists_of_bind_eq_ok {β : Type} {first : Except ε α} {later : α → Except ε β} {last : β}
    (h : first >>= later = .ok last) : ∃ middle, first = .ok middle ∧ later middle = .ok last := by
  cases first with
  | error e => cases h
  | ok middle => exact ⟨middle, rfl, h⟩

theorem bind_of_eq_ok {β : Type} {first : Except ε α} {later : α → Except ε β} {middle : α}
    (h : first = .ok middle) : first >>= later = later middle := by
  rw [h]
  rfl

/-- Where a result is turned into something, there is one. -/
theorem exists_of_map_eq_ok {β : Type} {f : α → β} {result : Except ε α} {last : β}
    (h : result.map f = .ok last) : ∃ value, result = .ok value ∧ f value = last := by
  cases result with
  | error e => cases h
  | ok value => exact ⟨value, rfl, Except.ok.inj h⟩

theorem eq_ok_of_mapError_eq_ok {ε' : Type} {f : ε → ε'} {result : Except ε α} {value : α}
    (h : result.mapError f = .ok value) : result = .ok value := by
  cases result with
  | error e => cases h
  | ok found => rw [Except.ok.inj h]

end

namespace FileTree

/-- What is found among nodes of which those at `location` were replaced. -/
theorem lookup_replace (nodes : List (Location × Node)) (location other : Location) (node : Node) :
    (nodes.map fun entry => if entry.1 = location then (location, node) else entry).lookup other =
      if other = location then (nodes.lookup other).map fun _ => node else nodes.lookup other := by
  induction nodes with
  | nil => simp
  | cons entry nodes ih =>
    obtain ⟨there, old⟩ := entry
    rw [List.map_cons, List.lookup_cons]
    by_cases hother : other = there
    -- the first entry is the one that is found, whether it was replaced or not
    · subst hother
      by_cases hthere : other = location
      · subst hthere
        rw [if_pos rfl, if_pos rfl, List.lookup_cons_self, beq_self_eq_true]
        rfl
      · rw [if_neg hthere, if_neg hthere, List.lookup_cons_self, beq_self_eq_true]
    · have hskip : (other == there) = false := beq_false_of_ne hother
      by_cases hthere : there = location
      · subst hthere
        rw [if_pos rfl, List.lookup_cons, hskip, ih]
      · rw [if_neg hthere, List.lookup_cons, hskip, ih]

/-- A node that was put somewhere is there, and everything else is as it was. -/
theorem node?_put (tree : FileTree) {location : Location} (h : location ≠ []) (node : Node)
    (other : Location) :
    (tree.put location node).node? other =
      if other = location then some node else tree.node? other := by
  by_cases hother : other = location
  · subst hother
    rw [if_pos rfl, node?, if_neg h, put]
    split
    next hfound =>
      obtain ⟨old, hold⟩ := Option.isSome_iff_exists.mp hfound
      rw [lookup_replace, if_pos rfl, hold, Option.map_some]
    next hmissing =>
      rw [List.lookup_append, Option.not_isSome_iff_eq_none.mp hmissing, Option.none_or,
        List.lookup_cons_self]
  · have hskip : (other == location) = false := beq_false_of_ne hother
    have hlookup : (tree.put location node).nodes.lookup other = tree.nodes.lookup other := by
      unfold put
      split
      · rw [lookup_replace, if_neg hother]
      · rw [List.lookup_append, List.lookup_cons, hskip, List.lookup_nil, Option.or_none]
    rw [if_neg hother, node?, node?, hlookup]

/-! ## Creating and filling -/

/-- A file to write to has its place in a directory, and is none itself. -/
theorem exists_of_target_eq_ok {tree : FileTree} {path : Path} {location : Location}
    (h : tree.target path = .ok location) :
    ∃ directory name, location = directory ++ [name] ∧
      tree.requireDirectory directory = .ok () ∧ tree.node? location ≠ some .directory := by
  unfold target at h
  split at h
  next =>
    obtain ⟨_, -, hdirectory⟩ := exists_of_bind_eq_ok h
    cases hdirectory
  next name hname =>
    obtain ⟨directory, -, h⟩ := exists_of_bind_eq_ok h
    obtain ⟨⟨⟩, hrequire, h⟩ := exists_of_bind_eq_ok h
    split at h
    next => cases h
    next =>
    split at h
    next => cases h
    next =>
    split at h
    next => cases h
    next hnode =>
      obtain rfl : directory ++ [name] = location := Except.ok.inj h
      exact ⟨directory, name, rfl, hrequire, hnode⟩

/-- A directory is no file that can be written to. -/
theorem node?_ne_directory_of_target_eq_ok {tree : FileTree} {path : Path} {location : Location}
    (h : tree.target path = .ok location) : tree.node? location ≠ some .directory := by
  obtain ⟨_, _, -, -, hnode⟩ := exists_of_target_eq_ok h
  exact hnode

/-- Creating a file empties what is where the path leads. -/
theorem target_of_create_eq_ok {tree created : FileTree} {path : Path} {location : Location}
    (h : tree.create path = .ok (location, created)) :
    tree.target path = .ok location ∧ created = tree.truncate location := by
  obtain ⟨_, -, h⟩ := exists_of_bind_eq_ok h
  obtain ⟨found, htarget, h⟩ := exists_of_bind_eq_ok h
  obtain ⟨rfl, rfl⟩ := Prod.mk.inj (Except.ok.inj h)
  exact ⟨eq_ok_of_mapError_eq_ok htarget, rfl⟩

/-- Creating a file empties what is at its location, which isn't the root directory. -/
theorem of_create_eq_ok {tree created : FileTree} {path : Path} {location : Location}
    (h : tree.create path = .ok (location, created)) :
    location ≠ [] ∧ created = tree.truncate location := by
  obtain ⟨htarget, hcreated⟩ := target_of_create_eq_ok h
  refine ⟨?_, hcreated⟩
  rintro rfl
  exact node?_ne_directory_of_target_eq_ok htarget rfl

/-- Emptying a file changes nothing else. -/
theorem node?_truncate (tree : FileTree) {location : Location} (h : location ≠ [])
    (hfile : ∀ node, tree.node? location = some node → ∃ contents, node = .regular contents)
    (other : Location) :
    (tree.truncate location).node? other =
      if other = location then some (.regular []) else tree.node? other := by
  unfold truncate
  split
  next hdevice => exact absurd (hfile _ hdevice) (by simp)
  next hdevice => exact absurd (hfile _ hdevice) (by simp)
  next => exact node?_put tree h _ other

/-- Whatever is emptied, nothing else changes. -/
theorem node?_truncate_of_ne (tree : FileTree) {location other : Location} (h : location ≠ [])
    (hother : other ≠ location) : (tree.truncate location).node? other = tree.node? other := by
  unfold truncate
  split
  -- devices stay as they are
  next => rfl
  next => rfl
  next => rw [node?_put tree h, if_neg hother]

/-- What is no file when it has been emptied is a device, and stays as it is. -/
theorem truncate_eq_self {tree : FileTree} {location : Location} (h : location ≠ [])
    (hcontents : (tree.truncate location).contents? location = none) :
    tree.truncate location = tree := by
  unfold truncate at hcontents ⊢
  split at hcontents
  next => rfl
  next => rfl
  next => simp [contents?, node?_put tree h] at hcontents

/-- Filling a file changes nothing else. -/
theorem node?_fill {tree : FileTree} {location : Location} (h : location ≠ [])
    {old : List UInt8} (hfile : tree.node? location = some (.regular old)) (contents : List UInt8)
    (other : Location) :
    (tree.fill location contents).node? other =
      if other = location then some (.regular contents) else tree.node? other := by
  simp only [fill, hfile]
  exact node?_put tree h _ other

/-- Whatever is filled, nothing else changes. -/
theorem node?_fill_of_ne (tree : FileTree) {location other : Location} (h : location ≠ [])
    (hother : other ≠ location) (contents : List UInt8) :
    (tree.fill location contents).node? other = tree.node? other := by
  unfold fill
  split
  next => rw [node?_put tree h, if_neg hother]
  next => rfl

/-- Only files are filled. -/
theorem fill_eq_self {tree : FileTree} {location : Location}
    (h : tree.contents? location = none) (contents : List UInt8) :
    tree.fill location contents = tree := by
  unfold fill
  split
  next old hold => simp [contents?, hold] at h
  next => rfl

/-! ## Trees that agree -/

/-- Emptying what is at a location is a matter of its node, so trees that agree there agree as far
as before when it has been emptied. -/
theorem node?_truncate_congr {tree other : FileTree} {location there : Location}
    (hroot : location ≠ []) (hlocation : other.node? location = tree.node? location)
    (hthere : other.node? there = tree.node? there) :
    (other.truncate location).node? there = (tree.truncate location).node? there := by
  unfold truncate
  rw [hlocation]
  split
  next => exact hthere
  next => exact hthere
  next => rw [node?_put other hroot, node?_put tree hroot, hthere]

/-- The same of filling what is at a location. -/
theorem node?_fill_congr {tree other : FileTree} {location there : Location}
    (hroot : location ≠ []) (hlocation : other.node? location = tree.node? location)
    (hthere : other.node? there = tree.node? there) (contents : List UInt8) :
    (other.fill location contents).node? there = (tree.fill location contents).node? there := by
  unfold fill
  rw [hlocation]
  split
  next => rw [node?_put other hroot, node?_put tree hroot, hthere]
  next => exact hthere

/-- What reading from a location gives is a matter of its node. -/
theorem source_congr {tree other : FileTree} {location : Location}
    (h : tree.node? location = other.node? location) :
    tree.source location = other.source location := by
  rw [source, source, h]

end FileTree

end TextEmbed
