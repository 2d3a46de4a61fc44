import SecurityFabric.Model.Authorization.Hierarchy
import SecurityFabric.Machine.Run

/-! # The two views of a role's scope, and looking for a type

The view by hierarchy shows a type of the scope that lies below a root only under its parent, so a type is lost unless
the types above it, up to a root, are all in the scope. Nothing else is shown.

A type that lies below two roots is found below the one that is gone through first. Nothing keeps the two from having
different types below it: the check compares siblings only.
-/

namespace SecurityFabric.Authorization

open List GoMap Option AList Machine

variable {id : String} {table : HierarchyTable}

/-- A type at any level below which only types that are kept are gone into. -/
inductive Below (kept : String → Prop) : List ResourceTypeHierarchy → String → Prop where
  | here {id : String} {children level : List ResourceTypeHierarchy}
    (member : .node id children ∈ level) (isKept : kept id) :
    Below kept level id
  | deeper {id above : String} {children level : List ResourceTypeHierarchy} (member : .node above children ∈ level)
    (isKept : kept above) (below : Below kept children id) : Below kept level id

private theorem Below.cons {kept : String → Prop} {first : ResourceTypeHierarchy} {rest : List ResourceTypeHierarchy}
    (below : Below kept rest id) : Below kept (first :: rest) id := by
  cases below with
  | here mem isKept => exact .here (mem_cons_of_mem _ mem) isKept
  | deeper mem isKept below => exact .deeper (mem_cons_of_mem _ mem) isKept below

private theorem not_below_nil {kept : String → Prop} : ¬ Below kept [] id := by
  intro below
  cases below <;> contradiction

private theorem below_cons_iff {kept : String → Prop} {id above : String} {children rest : List ResourceTypeHierarchy} :
    Below kept (.node above children :: rest) id ↔ (kept above ∧ (id = above ∨ Below kept children id)) ∨
    Below kept rest id := by
  constructor
  · intro below
    cases below with
    | here mem isKept =>
      rcases mem_cons.mp mem with same | later
      · cases same
        exact .inl ⟨isKept, .inl rfl⟩
      · exact .inr (.here later isKept)
    | deeper mem isKept below =>
      rcases mem_cons.mp mem with same | later
      · cases same
        exact .inl ⟨isKept, .inr below⟩
      · exact .inr (.deeper later isKept below)
  · rintro (⟨isKept, rfl | below⟩ | below)
    · exact .here mem_cons_self isKept
    · exact .deeper mem_cons_self isKept below
    · exact below.cons

/-- In the scope, and a type that exists. -/
def Kept (resourceTypeIDs : List String) (types : GoMap String ResourceType) (id : String) : Prop :=
  id ∈ resourceTypeIDs ∧ id ∈ types

variable {level : List ResourceTypeHierarchy}

section Views

variable {resourceTypeIDs : List String} {types : GoMap String ResourceType} (keyed : GoMap.Keyed (·.id) types)

private theorem scopeIDs_append (first second : List ResourceTypeScope) :
    scopeIDs (first ++ second) = scopeIDs first ++ scopeIDs second := by
  induction first with
  | nil => rw [nil_append, scopeIDs, nil_append]
  | cons scope rest ih =>
    obtain ⟨id, typeOperation, instanceOperation, children⟩ := scope
    rw [cons_append, scopeIDs, scopeIDs, ih, cons_append, append_assoc]

private theorem mem_scopeIDs {views : List ResourceTypeScope} :
    id ∈ scopeIDs views ↔ ∃ view ∈ views, id ∈ scopeIDs [view] := by
  induction views with
  | nil => simp [scopeIDs]
  | cons view rest ih =>
    rw [← singleton_append, scopeIDs_append, mem_append, ih]
    simp

include keyed

private theorem mem_scopeIDs_info {id shown : String} {children : List ResourceTypeScope} :
    (∃ view, getResourceTypeInfo types id children = some view ∧ shown ∈ scopeIDs [view]) ↔
      id ∈ types ∧ (shown = id ∨ shown ∈ scopeIDs children) := by
  rw [getResourceTypeInfo]
  cases found : types.lookup id with
  | none => simp [lookup_eq_none.mp found]
  | some info =>
    have isID : info.id = id := keyed id info found
    have present : id ∈ types := lookup_isSome.mp (by rw [found]; rfl)
    simp [scopeIDs, isID, present]

private theorem mem_scopeIDs_fill :
    id ∈ scopeIDs (fillChildrenFromHierarchy resourceTypeIDs types level) ↔
    Below (Kept resourceTypeIDs types) level id := by
  induction level using collectChildrenIDs.induct with
  | case1 =>
    simp only [fillChildrenFromHierarchy, scopeIDs, not_mem_nil, false_iff]
    exact not_below_nil
  | case2 above children rest ihChildren ihRest =>
    rw [below_cons_iff, ← ihChildren, ← ihRest, fillChildrenFromHierarchy]
    split_ifs with inside
    · rw [scopeIDs_append, mem_append, mem_scopeIDs]
      simp only [mem_toList]
      rw [mem_scopeIDs_info keyed, Kept, and_iff_right inside]
    · simp [Kept, inside]

private theorem mem_scopeIDs_flat :
    id ∈ scopeIDs (getResourceTypeScopeInfoFlat resourceTypeIDs types) ↔ Kept resourceTypeIDs types id := by
  rw [mem_scopeIDs, getResourceTypeScopeInfoFlat]
  simp only [mem_filterMap]
  constructor
  · rintro ⟨view, ⟨other, mem, isView⟩, shown⟩
    obtain ⟨present, rfl | below⟩ := (mem_scopeIDs_info keyed).mp ⟨view, isView, shown⟩
    · exact ⟨mem, present⟩
    · rw [scopeIDs] at below
      cases below
  · rintro ⟨mem, present⟩
    obtain ⟨view, isView, shown⟩ := (@mem_scopeIDs_info types keyed id id []).mpr ⟨present, .inl rfl⟩
    exact ⟨view, ⟨id, mem, isView⟩, shown⟩

/-- Types below a root are shown under the types above them. -/
theorem mem_scopeIDs_hierarchy : id ∈ scopeIDs (getResourceTypeScopeInfoHierarchy table resourceTypeIDs types) ↔
    Kept resourceTypeIDs types id ∧ (id ∈ table ∨ id ∉ (GoMap.values table).flatMap collectChildrenIDs) ∨
      ∃ root children, Kept resourceTypeIDs types root ∧ table.lookup root = some children ∧
        Below (Kept resourceTypeIDs types) children id := by
  rw [mem_scopeIDs, getResourceTypeScopeInfoHierarchy]
  simp only [mem_filterMap]
  constructor
  · rintro ⟨view, ⟨other, mem, isView⟩, shown⟩
    split_ifs at isView with skipped
    obtain ⟨present, rfl | below⟩ := (mem_scopeIDs_info keyed).mp ⟨view, isView, shown⟩
    · exact .inl ⟨⟨mem, present⟩, by simpa [or_iff_not_imp_left] using skipped⟩
    · cases found : table.lookup other with
      | none =>
        rw [found, getD_none, fillChildrenFromHierarchy, scopeIDs] at below
        cases below
      | some children =>
        rw [found, mem_scopeIDs_fill keyed] at below
        exact .inr ⟨other, children, ⟨mem, present⟩, found, below⟩
  · rintro (⟨⟨mem, present⟩, notSkipped⟩ | ⟨root, children, ⟨mem, present⟩, found, below⟩)
    · have shown : ¬ (id ∉ table ∧ id ∈ (GoMap.values table).flatMap collectChildrenIDs) := fun skipped =>
        notSkipped.elim skipped.1 fun notBelow => notBelow skipped.2
      obtain ⟨view, isView, isShown⟩ := (mem_scopeIDs_info keyed).mpr ⟨present, .inl rfl⟩
      exact ⟨view, ⟨id, mem, by rw [if_neg shown]; exact isView⟩, isShown⟩
    · have isRoot : root ∈ table := lookup_isSome.mp (by rw [found]; rfl)
      rw [← mem_scopeIDs_fill keyed] at below
      obtain ⟨view, isView, isShown⟩ := (mem_scopeIDs_info keyed).mpr ⟨present, .inr below⟩
      refine ⟨view, ⟨root, mem, ?_⟩, isShown⟩
      rw [if_neg fun skipped => skipped.1 isRoot, found]
      exact isView

end Views

/-- A type of the scope that only lies below roots lies below one of the scope, with only types of the scope between
them. -/
def Connected (table : HierarchyTable) (resourceTypeIDs : List String) (types : GoMap String ResourceType) : Prop :=
  ∀ id, Kept resourceTypeIDs types id → id ∉ table → id ∈ (GoMap.values table).flatMap collectChildrenIDs →
    ∃ root children, Kept resourceTypeIDs types root ∧ table.lookup root = some children ∧
    Below (Kept resourceTypeIDs types) children id

private theorem Below.kept {kept : String → Prop} (below : Below kept level id) : kept id := by
  induction below with
  | here mem isKept => exact isKept
  | deeper mem isKept below ih => exact ih

private theorem keyed_resourceTypeMap (resourceTypes : List ResourceType) :
    GoMap.Keyed (·.id) (resourceTypeMap resourceTypes) :=
  (keyed_empty _).assign resourceTypes

theorem views_agree_iff (table : HierarchyTable) (resourceTypeIDs : List String) (resourceTypes : List ResourceType) :
    (∀ id, id ∈ scopeIDs (getResourceTypeScopeInfoHierarchy table resourceTypeIDs (resourceTypeMap resourceTypes)) ↔
      id ∈ scopeIDs (getResourceTypeScopeInfoFlat resourceTypeIDs (resourceTypeMap resourceTypes))) ↔
      Connected table resourceTypeIDs (resourceTypeMap resourceTypes) := by
  have keyed := keyed_resourceTypeMap resourceTypes
  simp only [mem_scopeIDs_hierarchy keyed, mem_scopeIDs_flat keyed]
  constructor
  · intro same id isKept notRoot isBelow
    rcases (same id).mpr isKept with ⟨-, isRoot | notBelow⟩ | shown
    · exact absurd isRoot notRoot
    · exact absurd isBelow notBelow
    · exact shown
  · intro connected id
    constructor
    · rintro (⟨isKept, -⟩ | ⟨root, children, -, -, below⟩)
      · exact isKept
      · exact below.kept
    · intro isKept
      by_cases shown : id ∈ table ∨ id ∉ (GoMap.values table).flatMap collectChildrenIDs
      · exact .inl ⟨isKept, shown⟩
      · obtain ⟨notRoot, isBelow⟩ := not_or.mp shown
        exact .inr (connected id isKept notRoot (not_not.mp isBelow))

/-- The view by hierarchy shows nothing that is not in the scope or that is no type. -/
theorem hierarchy_within_flat (table : HierarchyTable) (resourceTypeIDs : List String)
    (resourceTypes : List ResourceType) :
    scopeIDs (getResourceTypeScopeInfoHierarchy table resourceTypeIDs (resourceTypeMap resourceTypes)) ⊆
      scopeIDs (getResourceTypeScopeInfoFlat resourceTypeIDs (resourceTypeMap resourceTypes)) := by
  have keyed := keyed_resourceTypeMap resourceTypes
  intro id shown
  rw [mem_scopeIDs_flat keyed]
  rcases (mem_scopeIDs_hierarchy keyed).mp shown with ⟨isKept, -⟩ | ⟨root, children, -, -, below⟩
  · exact isKept
  · exact below.kept

/-- A library has folders, which have documents. The scope has the library and its documents, and the documents are not
shown. -/
theorem documents_lost : ∃ (table : HierarchyTable) (resourceTypeIDs : List String) (resourceTypes : List ResourceType),
    setPrivate resourceTypes ∅ (.node "library" [.node "folder" [.node "document" []]]) = .ok table ∧
    "document" ∈ scopeIDs (getResourceTypeScopeInfoFlat resourceTypeIDs (resourceTypeMap resourceTypes)) ∧
    "document" ∉ scopeIDs (getResourceTypeScopeInfoHierarchy table resourceTypeIDs
      (resourceTypeMap resourceTypes)) := by
  refine ⟨(∅ : HierarchyTable).insert "library" [.node "folder" [.node "document" []]], ["library", "document"],
    [⟨"library", []⟩, ⟨"folder", []⟩, ⟨"document", []⟩], rfl, ?_, ?_⟩
  · exact (mem_scopeIDs_flat (keyed_resourceTypeMap _)).mpr ⟨by decide, by decide⟩
  · rw [mem_scopeIDs_hierarchy (keyed_resourceTypeMap _)]
    rintro (⟨-, isRoot | notBelow⟩ | ⟨root, children, -, found, below⟩)
    · exact absurd isRoot (by decide)
    · refine notBelow (mem_flatMap.mpr ⟨[.node "folder" [.node "document" []]], mem_singleton.mpr rfl, ?_⟩)
      simp [collectChildrenIDs]
    · rcases lookup_insert_eq_some.mp found with ⟨-, rfl⟩ | ⟨-, before⟩
      · -- The folder is not in the scope, so what lies below it is not gone into.
        rcases below_cons_iff.mp below with ⟨⟨inScope, -⟩, -⟩ | below
        · exact absurd inScope (by decide)
        · exact not_below_nil below
      · cases before

/-- The subtrees found for a type that is no root do not depend on the root below which it is looked for. -/
def Agreeing (table : HierarchyTable) : Prop :=
  ∀ id, id ∉ table → ∀ children other, children ∈ GoMap.values table → other ∈ GoMap.values table →
    ∀ node ∈ findInChildren children id, ∀ found ∈ findInChildren other id, node = found

/-- What lies below the new root and below another one, without being a root, has the same subtree below both. -/
def Undisputed (table : HierarchyTable) (hierarchie : ResourceTypeHierarchy) : Prop :=
  ∀ id, id ≠ hierarchie.resourceTypeID → id ∉ table → ∀ root children, root ≠ hierarchie.resourceTypeID →
    table.lookup root = some children → ∀ node ∈ findInChildren hierarchie.children id,
    ∀ found ∈ findInChildren children id, node = found

/-- A call of `SetPrivate`, with the types that exist at the time. -/
structure SetCall where
  resourceTypes : List ResourceType
  hierarchie : ResourceTypeHierarchy

def SetCall.step (table : HierarchyTable) (call : SetCall) : Option HierarchyTable :=
  (setPrivate call.resourceTypes table call.hierarchie).toOption

private theorem step_eq_some {table next : HierarchyTable} {call : SetCall} (stepped : call.step table = some next) :
    next = table.insert call.hierarchie.resourceTypeID call.hierarchie.children := by
  rw [SetCall.step, setPrivate] at stepped
  cases checked : checkDuplicate (resourceTypeMap call.resourceTypes) call.hierarchie with
  | error failure =>
    rw [checked] at stepped
    cases stepped
  | ok _ =>
    rw [checked] at stepped
    exact (some.inj stepped).symm

private theorem Agreeing.insert {hierarchie : ResourceTypeHierarchy} (agreeing : Agreeing table)
    (undisputed : Undisputed table hierarchie) :
    Agreeing (table.insert hierarchie.resourceTypeID hierarchie.children) := by
  intro id notRoot children other mem otherMem node isNode found isFound
  obtain ⟨notNew, notOld⟩ := not_or.mp (fun isRoot => notRoot ((mem_insert _).mpr isRoot))
  obtain ⟨root, atRoot⟩ := (mem_values _ _).mp mem
  obtain ⟨otherRoot, atOther⟩ := (mem_values _ _).mp otherMem
  rcases lookup_insert_eq_some.mp atRoot with ⟨-, rfl⟩ | ⟨isOld, atRoot⟩ <;>
    rcases lookup_insert_eq_some.mp atOther with ⟨-, rfl⟩ | ⟨otherOld, atOther⟩
  · exact mem_unique isNode isFound
  · exact undisputed id notNew notOld otherRoot other otherOld atOther node isNode found isFound
  · exact (undisputed id notNew notOld root children isOld atRoot found isFound node isNode).symm
  · exact agreeing id notOld children other ((mem_values _ _).mpr ⟨root, atRoot⟩)
      ((mem_values _ _).mpr ⟨otherRoot, atOther⟩) node isNode found isFound

/-- What a search finds first is the same in any order when all it can find is the same. -/
theorem findSome?_eq_of_perm {α β : Type} {search : α → Option β} {first second : List α} (perm : first.Perm second)
    (same : ∀ a ∈ first, ∀ b ∈ first, ∀ found ∈ search a, ∀ other ∈ search b, found = other) :
    first.findSome? search = second.findSome? search := by
  cases found : first.findSome? search with
  | none =>
    symm
    rw [findSome?_eq_none_iff] at found ⊢
    exact fun a mem => found a (perm.mem_iff.mpr mem)
  | some result =>
    cases other : second.findSome? search with
    | none =>
      obtain ⟨a, mem, isFound⟩ := exists_of_findSome?_eq_some found
      rw [findSome?_eq_none_iff.mp other a (perm.mem_iff.mp mem)] at isFound
      cases isFound
    | some _ =>
      obtain ⟨a, mem, isFound⟩ := exists_of_findSome?_eq_some found
      obtain ⟨b, otherMem, otherFound⟩ := exists_of_findSome?_eq_some other
      rw [same a mem b (perm.mem_iff.mpr otherMem) _ isFound _ otherFound]

private theorem Agreeing.getHierarchy (agreeing : Agreeing table) {range other : List (List ResourceTypeHierarchy)}
    (isOrder : range.Perm (GoMap.values table)) (isOther : other.Perm (GoMap.values table)) (id : String) :
    getHierarchy table range id = Authorization.getHierarchy table other id := by
  rw [Authorization.getHierarchy, Authorization.getHierarchy]
  cases found : table.lookup id with
  | some children => rfl
  | none =>
    have same := findSome?_eq_of_perm (isOrder.trans isOther.symm) fun a mem b otherMem =>
      agreeing id (lookup_eq_none.mp found) a b (isOrder.mem_iff.mp mem) (isOrder.mem_iff.mp otherMem)
    simp [same]

/-- When no call disputes a subtree, what is found is determined by the store. -/
theorem getHierarchy_determined (calls : List SetCall) (table : HierarchyTable)
    (undisputed : Meets SetCall.step (fun table call => Undisputed table call.hierarchie) ∅ calls)
    (reached : Machine.run SetCall.step ∅ calls = some table)
    (range other : List (List ResourceTypeHierarchy)) (isOrder : range.Perm (GoMap.values table))
    (isOther : other.Perm (GoMap.values table)) (id : String) :
    getHierarchy table range id = getHierarchy table other id := by
  have agreeing : Agreeing table := invariant_of_meets Agreeing
    (fun agreeing undisputed stepped => step_eq_some stepped ▸ agreeing.insert undisputed)
    (fun id _ children other mem => by cases mem) undisputed reached
  exact agreeing.getHierarchy isOrder isOther id

/-- Two roots with the same types below them. -/
def sharedFolders : List SetCall :=
  [⟨[⟨"library", []⟩, ⟨"folder", []⟩, ⟨"document", []⟩], .node "library" [.node "folder" [.node "document" []]]⟩,
    ⟨[⟨"archive", []⟩, ⟨"folder", []⟩, ⟨"document", []⟩], .node "archive" [.node "folder" [.node "document" []]]⟩]

private theorem meets_sharedFolders :
    Meets SetCall.step (fun table call => Undisputed table call.hierarchie) ∅ sharedFolders := by
  refine ⟨?_, fun next stepped => ⟨?_, fun _ _ => trivial⟩⟩
  · intro id _ _ root children _ found
    cases found
  · rw [step_eq_some stepped]
    intro id _ _ root children _ found node isNode other isOther
    rcases lookup_insert_eq_some.mp found with ⟨-, rfl⟩ | ⟨-, before⟩
    · exact mem_unique isNode isOther
    · cases before

theorem sharedFolders_determined :
    ∃ table, Machine.run SetCall.step ∅ sharedFolders = some table ∧ (GoMap.values table).length = 2 ∧
    getHierarchy table (GoMap.values table) "folder" = getHierarchy table (GoMap.values table).reverse "folder" :=
  ⟨_, rfl, rfl, getHierarchy_determined sharedFolders _ meets_sharedFolders rfl _ _ (.refl _) (reverse_perm _) "folder"⟩

/-- An archive has folders too, without documents. Which folders are found depends on the order. -/
theorem folders_disputed :
    ∃ (calls : List SetCall) (table : HierarchyTable) (range other : List (List ResourceTypeHierarchy)),
    Machine.run SetCall.step ∅ calls = some table ∧ range.Perm (GoMap.values table) ∧ other.Perm (GoMap.values table) ∧
    getHierarchy table range "folder" = .node "folder" [.node "document" []] ∧
    getHierarchy table other "folder" = .node "folder" [] := by
  refine ⟨[⟨[⟨"library", []⟩, ⟨"folder", []⟩, ⟨"document", []⟩],
    .node "library" [.node "folder" [.node "document" []]]⟩,
    ⟨[⟨"archive", []⟩, ⟨"folder", []⟩, ⟨"document", []⟩], .node "archive" [.node "folder" []]⟩], _,
    [[.node "folder" [.node "document" []]], [.node "folder" []]],
    [[.node "folder" []], [.node "folder" [.node "document" []]]],
    rfl, .swap _ _ _, .refl _, ?_, ?_⟩ <;>
    rw [getHierarchy, lookup_insert_ne (by decide), lookup_insert_ne (by decide)] <;>
    simp [findInChildren]

end SecurityFabric.Authorization
