import TextEmbed.Proofs.FileTree
import TextEmbed.Proofs.Path

/-!
# Where paths lead

In a tree every node lies in a directory. So a path that ends at the directory above leads to a
directory, as one does that ends in a slash or in a dot. Any other path that can be opened ends in
the name of what it leads to.

## Main definitions

* `FileTree.IsTree`: every node lies in a directory.

## Main results

* `FileTree.openPath_cases`: a path leads to a directory, or it ends in a name;
* `FileTree.IsTree.create` and `FileTree.IsTree.fill`: trees stay trees when files are created and
  filled.
-/

namespace TextEmbed.FileTree

/-- Every node lies in a directory. -/
def IsTree (tree : FileTree) : Prop :=
  ∀ location, (tree.node? location).isSome → tree.node? location.dropLast = some .directory

/-- The nodes that are listed tell whether they lie in directories. -/
theorem isTree_iff (tree : FileTree) :
    tree.IsTree ↔ ∀ entry ∈ tree.nodes, tree.node? entry.1.dropLast = some .directory := by
  constructor
  · intro h entry hentry
    refine h entry.1 ?_
    rw [node?]
    split
    next => rfl
    next => exact List.lookup_isSome_iff.mpr ⟨entry, hentry, beq_self_eq_true entry.1⟩
  · intro h location hnode
    rw [node?] at hnode
    split at hnode
    next hroot => rw [hroot]; rfl
    next =>
      obtain ⟨entry, hentry, hlocation⟩ := List.lookup_isSome_iff.mp hnode
      rw [beq_iff_eq.mp hlocation]
      exact h entry hentry

instance (tree : FileTree) : Decidable tree.IsTree :=
  decidable_of_iff' _ tree.isTree_iff

variable {tree : FileTree} {path : Path} {location : Location}

/-! ## Opening -/

theorem node?_of_requireDirectory (h : tree.requireDirectory location = .ok ()) :
    tree.node? location = some .directory := by
  unfold requireDirectory at h
  split at h
  next hnode => exact hnode
  next => cases h
  next => cases h

/-- The directory above is one. -/
theorem IsTree.node?_of_enter_parent (htree : tree.IsTree) {found : Location}
    (h : tree.enter location .parent = .ok found) : tree.node? found = some .directory := by
  obtain ⟨⟨⟩, hrequire, h⟩ := exists_of_bind_eq_ok h
  obtain rfl : location.dropLast = found := Except.ok.inj h
  exact htree location (by rw [node?_of_requireDirectory hrequire]; rfl)

/-- Components that end at the directory above lead to a directory. -/
theorem IsTree.node?_of_follow (htree : tree.IsTree) {components : List Component}
    (hparent : components.getLast? = some .parent)
    (h : tree.follow path components = .ok location) : tree.node? location = some .directory := by
  obtain ⟨before, rfl⟩ := List.getLast?_eq_some_iff.mp hparent
  -- wherever the components before lead, the step up from there ends at a directory
  rw [follow, List.foldlM_append] at h
  obtain ⟨middle, -, h⟩ := exists_of_bind_eq_ok h
  rw [List.foldlM_cons] at h
  obtain ⟨found, henter, h⟩ := exists_of_bind_eq_ok h
  obtain rfl : found = location := Except.ok.inj h
  exact htree.node?_of_enter_parent henter

/-- What a path leads to is found along its components, and is a directory if it has to be. -/
theorem of_resolve_eq_ok (h : tree.resolve path = .ok location) :
    tree.follow path path.components = .ok location ∧
      (path.endsAsDirectory = true → tree.node? location = some .directory) := by
  obtain ⟨found, hfollow, h⟩ := exists_of_bind_eq_ok h
  cases hend : path.endsAsDirectory with
  | false =>
    obtain rfl : found = location := by simpa [hend, pure, Except.pure] using h
    exact ⟨hfollow, by simp⟩
  | true =>
    rw [hend] at h
    obtain ⟨⟨⟩, hrequire, h⟩ := exists_of_bind_eq_ok h
    obtain rfl : found = location := Except.ok.inj h
    exact ⟨hfollow, fun _ => node?_of_requireDirectory hrequire⟩

theorem of_openPath_eq_ok (h : tree.openPath path = .ok location) :
    path.bytes ≠ [] ∧ tree.resolve path = .ok location := by
  obtain ⟨⟨⟩, hcheck, h⟩ := exists_of_bind_eq_ok h
  refine ⟨?_, eq_ok_of_mapError_eq_ok h⟩
  intro hnil
  simp [checkPath, hnil] at hcheck

/-- A path that can be opened leads to a directory, or ends in the name of what it leads to. -/
theorem IsTree.openPath_cases (htree : tree.IsTree) (h : tree.openPath path = .ok location) :
    tree.node? location = some .directory ∨
      (Path.IsName path.lastSegment ∧
        path.components.getLast? = some (.name path.lastSegment)) := by
  obtain ⟨hbytes, hresolve⟩ := of_openPath_eq_ok h
  obtain ⟨hfollow, hdirectory⟩ := of_resolve_eq_ok hresolve
  rcases Path.endsAsDirectory_or hbytes with hend | hparent | hname
  · exact .inl (hdirectory hend)
  · exact .inl (htree.node?_of_follow hparent hfollow)
  · exact .inr hname

/-! ## Creating and filling -/

/-- What is put into a directory, and takes the place of no directory, leaves a tree. -/
theorem IsTree.put (htree : tree.IsTree) (hroot : location ≠ [])
    (hparent : tree.node? location.dropLast = some .directory)
    (hplace : tree.node? location ≠ some .directory) (node : Node) :
    (tree.put location node).IsTree := by
  intro other hother
  have habove : tree.node? other.dropLast = some .directory := by
    rw [node?_put tree hroot] at hother
    split at hother
    next hlocation => rw [hlocation, hparent]
    next => exact htree other hother
  -- so the directory above is not what was replaced
  have hne : other.dropLast ≠ location := by
    rintro rfl
    exact hplace habove
  rw [node?_put tree hroot, if_neg hne, habove]

/-- A file is created in a directory. -/
theorem node?_dropLast_of_target_eq_ok (h : tree.target path = .ok location) :
    tree.node? location.dropLast = some .directory := by
  obtain ⟨directory, name, rfl, hrequire, -⟩ := exists_of_target_eq_ok h
  rw [List.dropLast_concat]
  exact node?_of_requireDirectory hrequire

theorem IsTree.create (htree : tree.IsTree) {created : FileTree}
    (h : tree.create path = .ok (location, created)) : created.IsTree := by
  obtain ⟨htarget, rfl⟩ := target_of_create_eq_ok h
  have hput : (tree.put location (.regular [])).IsTree :=
    htree.put (of_create_eq_ok h).1 (node?_dropLast_of_target_eq_ok htarget)
      (node?_ne_directory_of_target_eq_ok htarget) _
  unfold truncate
  split
  next => exact htree
  next => exact htree
  next => exact hput

theorem IsTree.fill (htree : tree.IsTree) (location : Location) (contents : List UInt8) :
    (tree.fill location contents).IsTree := by
  unfold FileTree.fill
  split
  next old hnode =>
    -- the root is a directory, so it is no file that could be filled
    have hroot : location ≠ [] := by
      rintro rfl
      cases hnode
    exact htree.put hroot (htree location (by rw [hnode]; rfl)) (by rw [hnode]; simp) _
  next => exact htree

end TextEmbed.FileTree
