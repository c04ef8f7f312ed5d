import GmlCheck.Geometry.Reader
import GmlCheck.Proofs.Attempt

/-!
# Why geometries do not read

Whatever keeps an element from being read as a geometry is told in the words of `Unreadable`. No
step of reading fails in another way.
-/

namespace GmlCheck

open Attempt (FailsOnly)
open Xml

/-- The failure tells why something is no geometry. -/
def Error.IsUnreadable (e : Error) : Prop := ∃ reason, e = .geometry reason

theorem Error.isUnreadable_geometry (reason : Unreadable) : (geometry reason).IsUnreadable :=
  ⟨reason, rfl⟩

open Error (IsUnreadable isUnreadable_geometry)

/-! ## Positions -/

namespace Position

theorem readOrdinates_failsOnly (text : List Char) :
    FailsOnly IsUnreadable (readOrdinates text) := by
  refine FailsOnly.mapM (fun token => ?_) _
  unfold readOrdinate
  split
  · exact .ok _
  · exact .error (isUnreadable_geometry _)

theorem read_failsOnly (text : String) : FailsOnly IsUnreadable (read text) :=
  (readOrdinates_failsOnly _).bind fun _ => .ok _

theorem readList_failsOnly (text : String) (d : Nat) :
    FailsOnly IsUnreadable (readList text d) := by
  unfold readList
  split
  · exact .error (isUnreadable_geometry _)
  · refine (readOrdinates_failsOnly _).bind fun xs => ?_
    split
    · exact .ok _
    · exact .error (isUnreadable_geometry _)

end Position

/-! ## Elements -/

namespace Geometry

theorem statedDimension_failsOnly (n : Node) (d : Nat) :
    FailsOnly IsUnreadable (statedDimension n d) := by
  unfold statedDimension readDimension
  split
  · split
    · exact .ok _
    · exact .error (isUnreadable_geometry _)
  · exact .ok _

theorem child_failsOnly (n : Node) (name : String) : FailsOnly IsUnreadable (child n name) := by
  unfold child
  split
  · exact .ok _
  · exact .error (isUnreadable_geometry _)

theorem readPosition_failsOnly (n : Node) : FailsOnly IsUnreadable (readPosition n) :=
  Position.read_failsOnly _

theorem readPositions_failsOnly (n : Node) (d : Nat) :
    FailsOnly IsUnreadable (readPositions n d) := by
  unfold readPositions
  split
  · exact (statedDimension_failsOnly _ d).bind fun _ => Position.readList_failsOnly _ _
  · exact .mapM readPosition_failsOnly _

theorem readSegments_failsOnly (n : Node) (d : Nat) :
    FailsOnly IsUnreadable (readSegments n d) := by
  unfold readSegments
  split
  · exact .mapM (fun s => (statedDimension_failsOnly s d).bind fun d' =>
      (readPositions_failsOnly s d').bind fun _ => .ok _) _
  · exact .ok _

theorem readAs_failsOnly (n : Node) (d : Nat) (kind : Kind) :
    FailsOnly IsUnreadable (readAs n d kind) := by
  cases kind with
  | point =>
    exact (child_failsOnly n _).bind fun c => (readPosition_failsOnly c).bind fun _ => .ok _
  | lineString => exact (readPositions_failsOnly n d).bind fun _ => .ok _
  | curve => exact (readSegments_failsOnly n d).bind fun _ => .ok _
  | envelope =>
    exact (child_failsOnly n _).bind fun l => (child_failsOnly n _).bind fun u =>
      (readPosition_failsOnly l).bind fun _ => (readPosition_failsOnly u).bind fun _ => .ok _

end Geometry

/-- If an element does not read, it is told why. -/
theorem Instance.read_failsOnly (resolve : String → Option Crs) (p : Place) :
    FailsOnly IsUnreadable (Instance.read resolve p) := by
  unfold Instance.read
  cases p.node.isElement with
  | false => exact .error (isUnreadable_geometry _)
  | true =>
    cases Geometry.kind? p.node with
    | none => exact .error (isUnreadable_geometry _)
    | some kind =>
      exact (Geometry.statedDimension_failsOnly _ _).bind fun _ =>
        (Geometry.readAs_failsOnly _ _ _).bind fun _ => .ok _

end GmlCheck
