import SecurityFabric.Model.Authorization.Policy

/-! # Hierarchies of resource types and the types in the scope of a role

A hierarchy is stored under its root, a row for each root. A type may be a root and lie below other roots too. Looking
for a type takes the hierarchy of which it is the root, or else ranges over the map of all hierarchies, in an order that
is a parameter.

The types in the scope of a role are shown in a flat view and in one that shows a type below a root under its parent.
Names and descriptions are left out.
-/

namespace SecurityFabric.Authorization

/-- `t_resource_type_hierarchy`: the children of each root. -/
abbrev HierarchyTable := GoMap String (List ResourceTypeHierarchy)

def ResourceTypeHierarchy.resourceTypeID : ResourceTypeHierarchy → String
  | .node resourceTypeID _ => resourceTypeID

def ResourceTypeHierarchy.children : ResourceTypeHierarchy → List ResourceTypeHierarchy
  | .node _ children => children

variable (table : HierarchyTable) (resourceTypeIDs : List String) (resourceTypeInfoMap : GoMap String ResourceType)

/-- The types of one level exist and differ. -/
def checkLevel (children : List ResourceTypeHierarchy) : Except ServiceError (GoSet String) :=
  children.foldlM (fun checkDupMap child =>
    if child.resourceTypeID ∉ resourceTypeInfoMap then
      .error (badRequest ("resource type not found: " ++ child.resourceTypeID))
    else if child.resourceTypeID ∈ checkDupMap then .error (badRequest "同一层级不能有重复的资源类型")
    else .ok (checkDupMap.insert child.resourceTypeID ())) ∅

mutual
def checkDuplicate : ResourceTypeHierarchy → Except ServiceError Unit
  | .node resourceTypeID children => do
    if resourceTypeID ∉ resourceTypeInfoMap then
      throw (badRequest ("resource type not found: " ++ resourceTypeID))
    let _ ← checkLevel resourceTypeInfoMap children
    checkChildren children

/-- The check of every child. -/
def checkChildren : List ResourceTypeHierarchy → Except ServiceError Unit
  | [] => .ok ()
  | child :: rest => do
    checkDuplicate child
    checkChildren rest
end

/-- The types by their ids. -/
def resourceTypeMap (resourceTypes : List ResourceType) : GoMap String ResourceType :=
  GoMap.assign (·.id) id resourceTypes ∅

/-- `SetPrivate`, with the types that exist. -/
def setPrivate (resourceTypes : List ResourceType) (table : HierarchyTable) (hierarchie : ResourceTypeHierarchy) :
    Except ServiceError HierarchyTable := do
  checkDuplicate (resourceTypeMap resourceTypes) hierarchie
  return table.insert hierarchie.resourceTypeID hierarchie.children

/-- `Get`, with the rows in the order in which the map is gone through. -/
def getHierarchy (range : List (List ResourceTypeHierarchy)) (resourceTypeID : String) : ResourceTypeHierarchy :=
  match table.lookup resourceTypeID with
  | some children => .node resourceTypeID children
  | none => (range.findSome? fun children => findInChildren children resourceTypeID).getD (.node "" [])

/-- `ResourceTypeScopeWithOperation`. -/
inductive ResourceTypeScope where
  | node (id : String) (typeOperation instanceOperation : List String) (children : List ResourceTypeScope)
deriving Repr

/-- The operations of a type that have a scope. -/
def ResourceType.operationsIn (scope : OperationScopeType) (info : ResourceType) : List String :=
  (info.operation.filter fun operation => scope ∈ operation.scope).map (·.id)

/-- `getResourceTypeInfo`, with the types to be shown below it. -/
def getResourceTypeInfo (resourceTypeID : String) (children : List ResourceTypeScope) : Option ResourceTypeScope :=
  (resourceTypeInfoMap.lookup resourceTypeID).map fun info =>
    .node info.id (info.operationsIn .scopeType) (info.operationsIn .scopeInstance) children

def getResourceTypeScopeInfoFlat : List ResourceTypeScope :=
  resourceTypeIDs.filterMap fun resourceTypeID => getResourceTypeInfo resourceTypeInfoMap resourceTypeID []

/-- The types at any level. -/
def collectChildrenIDs : List ResourceTypeHierarchy → List String
  | [] => []
  | .node resourceTypeID children :: rest => resourceTypeID :: (collectChildrenIDs children ++ collectChildrenIDs rest)

def fillChildrenFromHierarchy : List ResourceTypeHierarchy → List ResourceTypeScope
  | [] => []
  | .node resourceTypeID children :: rest =>
    if resourceTypeID ∉ resourceTypeIDs then fillChildrenFromHierarchy rest
    else (getResourceTypeInfo resourceTypeInfoMap resourceTypeID (fillChildrenFromHierarchy children)).toList ++
      fillChildrenFromHierarchy rest

def getResourceTypeScopeInfoHierarchy : List ResourceTypeScope :=
  resourceTypeIDs.filterMap fun resourceTypeID =>
    if resourceTypeID ∉ table ∧ resourceTypeID ∈ (GoMap.values table).flatMap collectChildrenIDs then none
    else getResourceTypeInfo resourceTypeInfoMap resourceTypeID
      (fillChildrenFromHierarchy resourceTypeIDs resourceTypeInfoMap ((table.lookup resourceTypeID).getD []))

/-- The ids that appear anywhere in a view. -/
def scopeIDs : List ResourceTypeScope → List String
  | [] => []
  | .node id _ _ children :: rest => id :: (scopeIDs children ++ scopeIDs rest)

end SecurityFabric.Authorization
