import Scaffold.Hub.Standard
import Scaffold.Project.Files
import Scaffold.Project.Work

/-!
# Registering a resource in the hubs

`merge` registers a resource in every hub, in order.  A hub that does not exist is made from its
skeleton.  A hub that the disk refuses to read or write is a failed one, and the others are done all
the same.
-/

namespace Scaffold

/-- What became of a hub. -/
inductive HubStatus where
  /-- It was made. -/
  | created
  /-- The resource was added. -/
  | updated
  /-- The resource was registered already. -/
  | unchanged
  /-- The marker is missing; nothing was changed. -/
  | noMarker (marker : Text)
  /-- The resource does not belong into the hub. -/
  | notApplicable
  /-- The hub could not be read or written; the reason is given. -/
  | failed (reason : Text)
  deriving DecidableEq, Repr

namespace HubStatus

/-- The name of a status. -/
def name : HubStatus → Text
  | created => "created"
  | updated => "updated"
  | unchanged => "unchanged"
  | noMarker _ => "marker_missing"
  | notApplicable => "not_applicable"
  | failed _ => "failed"

/-- What is said about a status; mostly nothing. -/
def message : HubStatus → Text
  | noMarker marker => "marker not found: " ++ marker
  | failed reason => reason
  | _ => []

end HubStatus

/-- What became of one hub. -/
structure HubOutcome where
  /-- The name of the hub. -/
  hub : Text
  /-- Its place, relative to the project. -/
  path : Text
  /-- What became of it. -/
  status : HubStatus
  deriving DecidableEq, Repr

open Work

/-- The text of the hub at a path, if there is a file. -/
def Hub.current? (path : Path) : Work FileError (Option Text) := do
  if ← ask (·.isFile path) then
    return some (← ask (·.readText path))
  else return none

/-- Registers a resource in a hub. -/
def Hub.mergeAt (h : Hub) (r : Resource) (root : Path) : Work FileError HubStatus := do
  if !h.applies r then return .notApplicable
  else
    let path := root.join (.read h.place)
    let current ← Hub.current? path
    let (decision, log) := h.update r current
    reportAll log
    match decision with
    | .registered => return .unchanged
    | .noMarker => return .noMarker h.marker
    | .write text =>
      change (·.save path text)
      if current.isSome then
        report (wiring .info ("Updated " ++ h.place))
        return .updated
      else
        report (wiring .info ("Created " ++ h.place))
        return .created

/-- Registers a resource in a hub.  A refusal of the disk is an outcome. -/
def Hub.merge (r : Resource) (root : Path) (h : Hub) : Work FileError HubOutcome := do
  match ← attempt (h.mergeAt r root) with
  | .ok status => return ⟨h.name, h.place, status⟩
  | .error e =>
    if e.isRefusal then
      report (wiring .error ("Failed to update " ++ h.place ++ ": " ++ e.message))
      return ⟨h.name, h.place, .failed e.message⟩
    else fail e

/-- Registers a resource in hubs, in order. -/
def merge (hubs : List Hub) (r : Resource) (root : Path) : Work FileError (List HubOutcome) :=
  each (Hub.merge r root) hubs

end Scaffold
