import SecurityFabric.Model.UserManagement.Department
import SecurityFabric.ToMathlib.PathForest

/-! # Departments as a forest

When paths are made of ids of 36 letters and every department on a path exists, that a path matches the pattern of
another, or that it contains another as a string, both say that its department is in the subtree of the other. The rows
of users take part with the path of their department; the path of an unassigned user is in no subtree.
-/

namespace SecurityFabric.UserManagement

open List GoMap GoStrings Option

/-- An id has 36 letters, none of which has a meaning in a pattern. -/
def IsID (id : String) : Prop := id.length = 36 ∧ Plain id.toList

instance (id : String) : Decidable (IsID id) := inferInstanceAs (Decidable (_ ∧ _))

section

variable (info : DepartmentDBInfo) (departments : List DepartmentDBInfo) (depart : DepartmentDBInfo)

/-- Unique ids, paths of ids with 36 letters that end with that of the department, and the department above each that is
not a root. -/
structure RootedPaths : Prop where
  ids : (departments.map (·.id)).Nodup
  width : ∀ info ∈ departments, ∀ id ∈ pathIDs info.path, id.length = 36
  last : ∀ info ∈ departments, (pathIDs info.path).getLast? = some info.id
  parent : ∀ info ∈ departments, (pathIDs info.path).dropLast ≠ [] →
    ∃ above ∈ departments, pathIDs above.path = (pathIDs info.path).dropLast

/-- No letter of the ids has a meaning in a pattern. -/
structure DepartmentForest : Prop extends RootedPaths departments where
  plain : ∀ info ∈ departments, ∀ id ∈ pathIDs info.path, Plain id.toList

/-- A user's row is that of an existing department, or the row of the unassigned users. -/
def RowsMatch (userDeparts : List UserDepartment) : Prop :=
  ∀ row ∈ userDeparts, (row.departmentID = unDistribute ∧ row.path = unDistribute) ∨
    ∃ info ∈ departments, row.departmentID = info.id ∧ row.path = info.path

/-- A table that repeats, for each department, something its path says. -/
structure ColumnMatch {ρ : Type} (key value : ρ → String) (column : DepartmentDBInfo → Option String)
    (departments : List DepartmentDBInfo) (rows : List ρ) : Prop where
  sound : ∀ row ∈ rows, ∃ info ∈ departments, key row = info.id ∧ column info = some (value row)
  complete : ∀ info ∈ departments, ∀ said ∈ column info, ∃ row ∈ rows, key row = info.id ∧ value row = said

/-- The parent of a department, if it is not a root. -/
def parentID : Option String := (pathIDs info.path).dropLast.getLast?

/-- The root of a department. -/
def rootID : Option String := (pathIDs info.path).head?

/-- The departments at and below a department. -/
def subtree : List DepartmentDBInfo :=
  departments.filter fun info => pathIDs depart.path <+: pathIDs info.path

def subtreeIDs : List String := (subtree departments depart).map (·.id)

end

theorem pathIDs_ne_nil (path : String) : pathIDs path ≠ [] := split_ne_nil path '/'

theorem pathIDs_unDistribute : pathIDs unDistribute = [unDistribute] := by decide

section Strings

variable {path other : String} (ofIDs : ∀ id ∈ pathIDs path, IsID id)

include ofIDs

private theorem plain_path : Plain path.toList := by
  intro letter mem
  rw [← intercalate_split path '/'] at mem
  rcases mem_intercalate mem with rfl | ⟨letters, part, within⟩
  · decide
  · obtain ⟨id, isPart, rfl⟩ := mem_map.mp part
    exact (ofIDs id isPart).2 letter within

theorem length_path : 36 ≤ path.length := by
  obtain ⟨first, more, parts⟩ := exists_cons_of_ne_nil (pathIDs_ne_nil path)
  have begins : first.toList <+: path.toList := by
    rw [← intercalate_split path '/', show split path '/' = first :: more from parts]
    exact word_begins_intercalate '/' first.toList (more.map String.toList)
  have width : first.length = 36 := (ofIDs first (parts ▸ mem_cons_self)).1
  exact width ▸ begins.length_le

theorem pathLike_iff_begins : pathLike path other = true ↔ path.toList <+: other.toList := by
  rw [pathLike, String.toList_append]
  exact like_begins (plain_path ofIDs) other.toList

theorem pathLike_iff (otherIDs : ∀ id ∈ pathIDs other, IsID id) :
    pathLike path other = true ↔ pathIDs path <+: pathIDs other := by
  rw [pathLike_iff_begins ofIDs]
  exact begins_iff_split (fun id mem => (ofIDs id mem).1) fun id mem => (otherIDs id mem).1

theorem pathLike_unDistribute : pathLike path unDistribute = false := by
  rw [← Bool.not_eq_true, pathLike_iff_begins ofIDs]
  intro begins
  have short : path.length ≤ 2 := begins.length_le
  have long := length_path ofIDs
  omega

private theorem contains_unDistribute : GoStrings.contains unDistribute path = false := by
  rw [GoStrings.contains, decide_eq_false_iff_not]
  intro occurs
  have short : path.length ≤ 2 := occurs.length_le
  have long := length_path ofIDs
  omega

end Strings

/-- The paths of the departments as lists of ids. -/
abbrev departmentPaths (departments : List DepartmentDBInfo) : Set (List String) :=
  {path | ∃ info ∈ departments, pathIDs info.path = path}

variable {departments : List DepartmentDBInfo} {depart info : DepartmentDBInfo}

namespace RootedPaths

variable (paths : RootedPaths departments)

include paths

theorem eq_of_id (mem : depart ∈ departments) (other : info ∈ departments) (same : depart.id = info.id) :
    depart = info := inj_on_of_nodup_map paths.ids mem other same

theorem pathForest : PathForest (departmentPaths departments) where
  nonempty := by
    rintro _ ⟨info, _, rfl⟩
    exact pathIDs_ne_nil info.path
  closed := by
    rintro _ ⟨info, mem, rfl⟩ inner
    exact paths.parent info mem inner
  unique := by
    rintro _ ⟨info, mem, rfl⟩ _ ⟨other, otherMem, rfl⟩ same
    rw [paths.last info mem, paths.last other otherMem, some_inj] at same
    rw [paths.eq_of_id mem otherMem same]

theorem exists_of_mem_path (mem : info ∈ departments) {id : String} (onPath : id ∈ pathIDs info.path) :
    ∃ above ∈ departments, above.id = id := by
  obtain ⟨front, back, whole⟩ := append_of_mem onPath
  have begins : front ++ [id] <+: pathIDs info.path := ⟨back, by simp [whole]⟩
  obtain ⟨above, aboveMem, path⟩ := paths.pathForest.mem_of_begins ⟨info, mem, rfl⟩ (concat_ne_nil id front) begins
  have last := paths.last above aboveMem
  rw [path, getLast?_concat, some_inj] at last
  exact ⟨above, aboveMem, last.symm⟩

theorem begins_iff_mem (departMem : depart ∈ departments) (mem : info ∈ departments) :
    pathIDs depart.path <+: pathIDs info.path ↔ depart.id ∈ pathIDs info.path :=
  paths.pathForest.begins_iff_mem ⟨depart, departMem, rfl⟩ (paths.last depart departMem) ⟨info, mem, rfl⟩

theorem contains_iff_begins (departMem : depart ∈ departments) (mem : info ∈ departments) :
    GoStrings.contains info.path depart.path = true ↔ pathIDs depart.path <+: pathIDs info.path := by
  refine (contains_iff_split (paths.width depart departMem) (paths.width info mem)).trans ?_
  exact ⟨paths.pathForest.begins_of_occurs ⟨depart, departMem, rfl⟩ ⟨info, mem, rfl⟩, IsPrefix.isInfix⟩

end RootedPaths

namespace DepartmentForest

variable (forest : DepartmentForest departments)

include forest

theorem pathOfIDs (info : DepartmentDBInfo) (mem : info ∈ departments) : ∀ id ∈ pathIDs info.path, IsID id :=
  fun id onPath => ⟨forest.width info mem id onPath, forest.plain info mem id onPath⟩

theorem lookup_assign_id {ν : Type} {infos : List DepartmentDBInfo} (subset : ∀ info ∈ infos, info ∈ departments)
    (found : depart ∈ infos)
    (value : DepartmentDBInfo → ν) :
    (assign DepartmentDBInfo.id value infos ∅).lookup depart.id = some (value depart) :=
  lookup_assign_of_unique DepartmentDBInfo.id value ∅ found fun info mem same =>
    forest.eq_of_id (subset info mem) (subset depart found) same

private theorem isID (mem : info ∈ departments) : IsID info.id :=
  forest.pathOfIDs info mem _ (mem_of_getLast? (forest.last info mem))

theorem ne_unDistribute (mem : info ∈ departments) : info.id ≠ unDistribute := by
  intro same
  have width := (forest.isID mem).1
  rw [same] at width
  exact absurd width (by decide)

theorem mem_subtreeIDs (mem : info ∈ departments) :
    info.id ∈ subtreeIDs departments depart ↔ pathIDs depart.path <+: pathIDs info.path := by
  constructor
  · intro below
    obtain ⟨found, within, same⟩ := mem_map.mp below
    obtain ⟨existing, begins⟩ := mem_filter.mp within
    rw [← forest.eq_of_id existing mem same]
    exact of_decide_eq_true begins
  · intro begins
    exact mem_map.mpr ⟨info, mem_filter.mpr ⟨mem, decide_eq_true begins⟩, rfl⟩

theorem unDistribute_notMem_subtreeIDs : unDistribute ∉ subtreeIDs departments depart := by
  intro below
  obtain ⟨info, within, same⟩ := mem_map.mp below
  exact forest.ne_unDistribute (mem_filter.mp within).1 same

section

variable (departMem : depart ∈ departments) (mem : info ∈ departments)

include departMem mem

theorem pathLike_iff_mem : pathLike depart.path info.path = true ↔ info.id ∈ subtreeIDs departments depart := by
  rw [pathLike_iff (forest.pathOfIDs depart departMem) (forest.pathOfIDs info mem), forest.mem_subtreeIDs mem]

theorem contains_iff_mem :
    GoStrings.contains info.path depart.path = true ↔ info.id ∈ subtreeIDs departments depart := by
  rw [forest.contains_iff_begins departMem mem, forest.mem_subtreeIDs mem]

end

theorem remove (depart : DepartmentDBInfo) :
    DepartmentForest (departments.filter fun info => info.id ∉ subtreeIDs departments depart) where
  ids := forest.ids.sublist (filter_sublist.map _)
  width info mem := forest.width info (mem_of_mem_filter mem)
  plain info mem := forest.plain info (mem_of_mem_filter mem)
  last info mem := forest.last info (mem_of_mem_filter mem)
  parent info mem inner := by
    obtain ⟨existing, outside⟩ := mem_filter.mp mem
    obtain ⟨above, aboveMem, path⟩ := forest.parent info existing inner
    refine ⟨above, mem_filter.mpr ⟨aboveMem, decide_eq_true fun inside => of_decide_eq_true outside ?_⟩, path⟩
    rw [forest.mem_subtreeIDs aboveMem, path] at inside
    exact (forest.mem_subtreeIDs existing).mpr (inside.trans ( dropLast_prefix _))

variable {userDeparts : List UserDepartment} (rows : RowsMatch departments userDeparts) {row : UserDepartment}

include rows

theorem row_pathLike_iff (departMem : depart ∈ departments) (rowMem : row ∈ userDeparts) :
    pathLike depart.path row.path = true ↔ row.departmentID ∈ subtreeIDs departments depart := by
  rcases rows row rowMem with ⟨unassigned, path⟩ | ⟨info, mem, same, path⟩
  · rw [path, unassigned, pathLike_unDistribute (forest.pathOfIDs depart departMem)]
    simp [forest.unDistribute_notMem_subtreeIDs]
  · rw [path, same]
    exact forest.pathLike_iff_mem departMem mem

theorem row_contains_iff (departMem : depart ∈ departments) (rowMem : row ∈ userDeparts) :
    GoStrings.contains row.path depart.path = true ↔ row.departmentID ∈ subtreeIDs departments depart := by
  rcases rows row rowMem with ⟨unassigned, path⟩ | ⟨info, mem, same, path⟩
  · rw [path, unassigned, contains_unDistribute (forest.pathOfIDs depart departMem)]
    simp [forest.unDistribute_notMem_subtreeIDs]
  · rw [path, same]
    exact forest.contains_iff_mem departMem mem

theorem row_head_of_mem (rowMem : row ∈ userDeparts) (inside : row.departmentID ∈ subtreeIDs departments depart) :
    (pathIDs row.path).head? = (pathIDs depart.path).head? := by
  rcases rows row rowMem with ⟨unassigned, path⟩ | ⟨info, mem, same, path⟩
  · exact absurd (unassigned ▸ inside) forest.unDistribute_notMem_subtreeIDs
  · rw [same, forest.mem_subtreeIDs mem] at inside
    obtain ⟨rest, whole⟩ := inside
    rw [path, ← whole, head?_append_of_ne_nil _ (pathIDs_ne_nil depart.path)]

end DepartmentForest

end SecurityFabric.UserManagement

/-! # A small organisation

A root with two departments, one of which has a department below it, and three users: one only in the lowest department,
one in sales and in law, one in none.
-/

namespace SecurityFabric.UserManagement.Sample

open GoStrings

/-- The department with the last of these ids, below those with the others. -/
def depart (name : String) (isRoot : Int) (above : List String) (id : String) : DepartmentDBInfo :=
  ⟨id, name, isRoot, GoStrings.join (above ++ [id]) '/'⟩

def root : DepartmentDBInfo := depart "Company" 1 [] "00000000-0000-4000-8000-000000000001"

def sales : DepartmentDBInfo := depart "Sales" 0 [root.id] "00000000-0000-4000-8000-000000000002"

def travel : DepartmentDBInfo := depart "Travel" 0 [root.id, sales.id] "00000000-0000-4000-8000-000000000003"

def law : DepartmentDBInfo := depart "Law" 0 [root.id] "00000000-0000-4000-8000-000000000004"

def company : Organisation where
  users := [⟨"first", "First"⟩, ⟨"second", "Second"⟩, ⟨"third", "Third"⟩]
  departments := [root, sales, travel, law]
  relations := [⟨sales.id, root.id⟩, ⟨travel.id, sales.id⟩, ⟨law.id, root.id⟩]
  ouDepartments := [⟨root.id, root.id⟩, ⟨sales.id, root.id⟩, ⟨travel.id, root.id⟩, ⟨law.id, root.id⟩]
  userDeparts := [⟨"first", travel.id, travel.path⟩, ⟨"second", sales.id, sales.path⟩, ⟨"second", law.id, law.path⟩,
    ⟨"third", unDistribute, unDistribute⟩]
  ouUsers := [⟨"first", root.id⟩, ⟨"second", root.id⟩]
  responsiblePersons := []
  userRoles := []
  outbox := []

theorem pathIDs_root : pathIDs root.path = [root.id] := split_join (by decide) (by decide)

theorem pathIDs_sales : pathIDs sales.path = [root.id, sales.id] := split_join (by decide) (by decide)

theorem pathIDs_travel : pathIDs travel.path = [root.id, sales.id, travel.id] := split_join (by decide) (by decide)

theorem pathIDs_law : pathIDs law.path = [root.id, law.id] := split_join (by decide) (by decide)

theorem company_forest : DepartmentForest company.departments := by
  have ids : IsID root.id ∧ IsID sales.id ∧ IsID travel.id ∧ IsID law.id := by decide
  unfold IsID at ids
  refine ⟨⟨by decide, ?_, ?_, ?_⟩, ?_⟩ <;>
    simp [company, pathIDs_root, pathIDs_sales, pathIDs_travel, pathIDs_law, ids]

theorem company_relations : ColumnMatch DepartmentRelation.departmentID DepartmentRelation.parentDepartmentID parentID
    company.departments company.relations := by
  constructor <;> simp [company, parentID, pathIDs_root, pathIDs_sales, pathIDs_travel, pathIDs_law]

theorem company_rows : RowsMatch company.departments company.userDeparts := by simp [RowsMatch, company]

end SecurityFabric.UserManagement.Sample
