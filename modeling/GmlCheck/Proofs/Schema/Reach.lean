import Mathlib.Order.Bounds.Basic
import GmlCheck.Proofs.Schema.Relations

/-!
# The types that global elements lead to

`HoldsReach` is what every set of complex types has that misses none of those that global elements
lead to. `reachableTypes_least`: the search lists the least of these sets, whatever cycles the
content models run in, and local elements are looked for in the content models of its members.
-/

namespace GmlCheck.Schema

variable {m : Schema} {S : Set TypeId} {t : TypeId}

/-- The set is one of complex types. It holds those declared for global elements and, with a type,
those declared for the elements at any depth of its content model. -/
structure HoldsReach (m : Schema) (S : Set TypeId) : Prop where
  complex : ∀ t ∈ S, m.IsComplex t
  global : ∀ e d, m.Global e → m.element? e = some d → m.IsComplex d.type → d.type ∈ S
  nested : ∀ t ∈ S, ∀ e d, m.Holds t e → m.element? e = some d → m.IsComplex d.type → d.type ∈ S

theorem Reachable.isComplex (h : m.Reachable t) : m.IsComplex t := by
  cases h <;> assumption

theorem holdsReach_reachable (m : Schema) : m.HoldsReach {t | m.Reachable t} where
  complex _ h := h.isComplex
  global _ _ := .global
  nested _ h _ _ := .nested h

theorem HoldsReach.mem_of_reachable (hS : m.HoldsReach S) (h : m.Reachable t) : t ∈ S := by
  induction h with
  | global he hd hc => exact hS.global _ _ he hd hc
  | nested _ he hd hc ih => exact hS.nested _ ih _ _ he hd hc

theorem isLeast_reachable (m : Schema) : IsLeast {S | m.HoldsReach S} {t | m.Reachable t} :=
  ⟨m.holdsReach_reachable, fun _ hS _ ht => HoldsReach.mem_of_reachable hS ht⟩

theorem nodup_reachableTypes (m : Schema) : m.reachableTypes.Nodup :=
  Closure.nodup_collect (m.nodup_typeIds.filter _)

theorem nodup_localElementsOfType (m : Schema) (target : TypeId) (accept : TypeId → Bool) :
    (m.localElementsOfType target accept).Nodup :=
  Renaming.nodup_eraseDups _

/-- The reachable types are listed each once, and no set that holds them all is smaller. The local
elements of a type are those that count as the type and occur in the content model of an accepted
type among them, and they too are listed each once. -/
theorem reachableTypes_least (m : Schema) :
    m.reachableTypes.Nodup ∧
    IsLeast {S | m.HoldsReach S} {t | t ∈ m.reachableTypes} ∧
    ∀ target accept, (m.localElementsOfType target accept).Nodup ∧
      ∀ e, e ∈ m.localElementsOfType target accept ↔
        ∃ t ∈ m.reachableTypes, accept t = true ∧ m.Holds t e ∧
          ∃ d, m.element? e = some d ∧ d.scope ≠ .global ∧ m.CountsAs d.type target := by
  refine ⟨m.nodup_reachableTypes, ?_, fun target accept => ⟨?_, fun e => ?_⟩⟩
  · simp only [mem_reachableTypes_iff]
    exact m.isLeast_reachable
  · exact m.nodup_localElementsOfType target accept
  · simp only [mem_localElementsOfType_iff, mem_reachableTypes_iff, LocalIn, TypedBy]
    refine exists_congr fun t => and_congr_right fun _ => and_congr_right fun _ =>
      and_congr_right fun _ => ⟨?_, ?_⟩
    · rintro ⟨⟨d, hd, hs⟩, d', hd', hc⟩
      cases hd.symm.trans hd'
      exact ⟨d, hd, hs, hc⟩
    · rintro ⟨d, hd, hs, hc⟩
      exact ⟨⟨d, hd, hs⟩, d, hd, hc⟩

end GmlCheck.Schema
