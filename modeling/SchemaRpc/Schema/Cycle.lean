/-
# Cycles by value

A type that contains itself by value has no finite instance.  A struct contains the struct or
union type of each field that is not optional, a union those of all its variants; optional
fields and arrays may be empty and contain nothing.  The search follows these edges depth
first, keeps the path that it stands on, and remembers the types from which no cycle can be
reached.
-/
import SchemaRpc.Schema.Basic

namespace SchemaRpc

namespace Schema

/-- A struct or union by its position. -/
inductive Node where
  | struct (id : Nat)
  | union (id : Nat)
deriving DecidableEq

/-- The struct or union that a type is. -/
def Node.ofType? : TypeRef → Option Node
  | .struct id => some (.struct id)
  | .union id => some (.union id)
  | _ => none

/-- The name of a struct or union. -/
def Node.name (structs : List StructType) (unions : List UnionType) : Node → String
  | .struct id => (structs[id]?.map (·.name)).getD ""
  | .union id => (unions[id]?.map (·.name)).getD ""

/-- The structs and unions that one contains by value, in order. -/
def containedIn (structs : List StructType) (unions : List UnionType) : Node → List Node
  | .struct id =>
    match structs[id]? with
    | some s => (s.fields.filter (!·.optional)).filterMap fun f => Node.ofType? f.type
    | none => []
  | .union id =>
    match unions[id]? with
    | some u => u.variants.filterMap fun v => Node.ofType? v.type
    | none => []

/-- Visit nodes one after the other, each with what is known after the earlier ones. -/
def visitEach (visit : List Node → Node → Except (List Node) (List Node)) :
    (done nodes : List Node) → Except (List Node) (List Node)
  | done, [] => .ok done
  | done, node :: more =>
    match visit done node with
    | .error cycle => .error cycle
    | .ok done => visitEach visit done more

/-- Search from a node. `path` is the way to it, the last node first, and `done` holds nodes from
which no cycle can be reached; the result is `done` with the node, or a cycle from a node back
to it. The path never repeats a node, so `fuel` bounds its length. -/
def searchFrom (next : Node → List Node) :
    (fuel : Nat) → (path done : List Node) → Node → Except (List Node) (List Node)
  | 0, _, done, _ => .ok done
  | fuel + 1, path, done, node =>
    if done.contains node then .ok done
    else if path.contains node then
      .error (node :: (path.takeWhile (· ≠ node)).reverse ++ [node])
    else
      match visitEach (searchFrom next fuel (node :: path)) done (next node) with
      | .error cycle => .error cycle
      | .ok done => .ok (node :: done)

/-- The structs and unions of a schema, structs first. -/
def nodes (structs : List StructType) (unions : List UnionType) : List Node :=
  (List.range structs.length).map .struct ++ (List.range unions.length).map .union

/-- The names along the first cycle by value, if there is one. -/
def firstCycle? (structs : List StructType) (unions : List UnionType) : Option (List String) :=
  let all := nodes structs unions
  match visitEach (searchFrom (containedIn structs unions) (all.length + 1) []) [] all with
  | .ok _ => none
  | .error cycle => some (cycle.map (Node.name structs unions))

end Schema

end SchemaRpc
