import Supervisor.Settings.Basic
/-!
# Layers of settings

Settings are put together from layers of JSON. An upper layer replaces what lies below, member by
member through objects; null says nothing.
-/
namespace Supervisor.Settings

mutual

/-- Puts a layer over a value. -/
def merge (base : Json) : Json → Json
  | .null => base
  | .object members =>
    match base with
    | .object below => .object (mergeMembers below members)
    | _ => .object members
  | layer => layer

def mergeMembers (below : Table Json) : List (String × Json) → Table Json
  | [] => below
  | (n, j) :: rest =>
    match Table.find? below n with
    | some old => mergeMembers (Table.insert n (merge old j) below) rest
    | none =>
      if j.isNull then mergeMembers below rest else mergeMembers (Table.insert n j below) rest

end

/-- All layers in one value, the lowest layer first. -/
def mergeAll (layers : List Json) : Json := layers.foldl merge (.object [])

/-- The settings that the layers make together. -/
def ofLayers (layers : List Json) : Except Fault Settings :=
  match shape.readJson (mergeAll layers) with
  | .ok s => .ok s
  | .error e => .error (.config ("Invalid configuration: " ++ e.message))

theorem merge_null (base : Json) : merge base .null = base := by
  cases base <;> simp [merge]

end Supervisor.Settings
