import ChainGenesis.Proofs.Merge
import ChainGenesis.Proofs.Placeholder

/-!
# Filling in and merging

An overlay can be laid over a base before their placeholders are filled in or after. The outcome
is the same if no placeholder stands for an object: merging asks of a value only whether it is
an object, and then filling in neither makes one nor takes one away. What goes with the
base's values that an overlay replaces is the tokens in them, so fewer names can be left over
if merging comes first.
-/

namespace ChainGenesis

/-! ## Objects stay objects -/

namespace Placeholder

/-- No replacement is the JSON text of an object. -/
def NoObject (values : Values) : Prop :=
  ∀ name value, Named.lookup? name values = some value →
    ∀ members, Document.parse value ≠ .ok (.object members)

theorem isObject_meaning {value : String}
    (h : ∀ members, Document.parse value ≠ .ok (.object members)) :
    (meaning value).isObject = false := by
  unfold meaning
  split
  · rename_i doc hparse
    refine Bool.eq_false_iff.mpr fun hobject => ?_
    obtain ⟨members, rfl⟩ := Document.isObject_iff.mp hobject
    exact h members hparse
  · rfl

theorem isObject_fill {values : Values} (h : NoObject values) (text : String) :
    (fill values text).isObject = false := by
  unfold fill
  split
  · split
    · rename_i value hvalue
      exact isObject_meaning (h _ value hvalue)
    · rfl
  · rfl

end Placeholder

namespace Document

open Placeholder (Values NoObject)

theorem isObject_fill {values : Values} (h : NoObject values) (doc : Document) :
    (doc.fill values).isObject = doc.isObject := by
  cases doc with
  | string text => exact Placeholder.isObject_fill h text
  | null | bool _ | number _ | array _ | object _ => rfl

/-! ## Either first -/

mutual

/-- **Filling in commutes with merging** if no placeholder stands for an object. -/
theorem fill_merge {values : Values} (h : NoObject values) : ∀ base upper : Document,
    (base.merge upper).fill values = (base.fill values).merge (upper.fill values)
  | base, .object upper => by
      cases hbase : base.isObject with
      | false =>
          -- the overlay stands alone, and so does what becomes of it
          have hfilled := (isObject_fill h base).trans hbase
          rw [merge_of_not_isObject (.inl hbase), merge_of_not_isObject (.inl hfilled)]
      | true =>
          obtain ⟨members, rfl⟩ := isObject_iff.mp hbase
          rw [merge, fill, fill, fill, merge, fillMembers_mergeMembers h members upper]
  | base, .string text => by
      have hfilled := isObject_fill h (.string text)
      rw [merge_of_not_isObject (.inr rfl), merge_of_not_isObject (.inr hfilled)]
  | _, .null | _, .bool _ | _, .number _ | _, .array _ => rfl

theorem fillMembers_mergeMembers {values : Values} (h : NoObject values) :
    ∀ base upper : List (String × Document), fillMembers values (mergeMembers base upper)
      = mergeMembers (fillMembers values base) (fillMembers values upper)
  | _, [] => rfl
  | base, (name, value) :: rest => by
      have hrest := fillMembers_mergeMembers h base rest
      rw [mergeMembers, fillMembers_eq_map, Named.map_put, ← fillMembers_eq_map, hrest,
        fillMembers, mergeMembers, lookup?_fillMembers]
      cases Named.lookup? name base with
      | none => rfl
      | some old =>
          dsimp only [Option.map_some]
          rw [fill_merge h old value]

end

/-! ## Names that are left over -/

mutual

/-- A merged document has no strings but those of its layers. -/
theorem HasString.of_merge {text : String} : ∀ {base upper : Document},
    (base.merge upper).HasString text → base.HasString text ∨ upper.HasString text
  | .object _, .object _, h => by
      rw [merge] at h
      exact HasString.of_mergeMembers h
  | .null, .object _, h | .bool _, .object _, h | .number _, .object _, h
  | .string _, .object _, h | .array _, .object _, h => .inr h
  | _, .null, h | _, .bool _, h | _, .number _, h | _, .string _, h | _, .array _, h => .inr h

theorem HasString.of_mergeMembers {text : String} : ∀ {base upper : List (String × Document)},
    (object (mergeMembers base upper)).HasString text →
      (object base).HasString text ∨ (object upper).HasString text
  | _, [], h => .inl h
  | base, (name, value) :: rest, h => by
      rw [mergeMembers] at h
      obtain ⟨member, hmem, htext⟩ := hasString_object_iff.mp h
      rcases Named.mem_put hmem with rfl | hmem
      · cases hold : Named.lookup? name base with
        | none =>
            rw [hold] at htext
            exact .inr (.member List.mem_cons_self htext)
        | some old =>
            rw [hold] at htext
            rcases HasString.of_merge htext with htext | htext
            · exact .inl (.member (Named.mem_of_lookup? hold) htext)
            · exact .inr (.member List.mem_cons_self htext)
      · rcases HasString.of_mergeMembers (.member hmem htext) with htext | htext
        · exact .inl htext
        · obtain ⟨member, hmem, htext⟩ := hasString_object_iff.mp htext
          exact .inr (.member (List.mem_cons_of_mem _ hmem) htext)

end

/-- A name that is left over in a merged document is left over in a layer. -/
theorem mem_unresolved_merge {values : Values} {base upper : Document} {name : String}
    (h : name ∈ (base.merge upper).unresolved values) :
    name ∈ base.unresolved values ∨ name ∈ upper.unresolved values := by
  obtain ⟨htoken, hvalue⟩ := mem_unresolved_iff.mp h
  obtain ⟨text, htext, hname⟩ := mem_tokens_iff.mp htoken
  rcases htext.of_merge with htext | htext
  · exact .inl (mem_unresolved_iff.mpr ⟨mem_tokens_iff.mpr ⟨text, htext, hname⟩, hvalue⟩)
  · exact .inr (mem_unresolved_iff.mpr ⟨mem_tokens_iff.mpr ⟨text, htext, hname⟩, hvalue⟩)

end Document

/-! ## Resolving layers -/

/-- **Layers can be resolved before they are merged or after** if no placeholder stands for an
object. The documents are the same, and no other names are left over if merging comes first. -/
theorem resolve_merge {values : Placeholder.Values} (h : Placeholder.NoObject values)
    (base upper : Document) :
    ∃ lower above merged, resolve values false base = .ok lower
      ∧ resolve values false upper = .ok above
      ∧ resolve values false (base.merge upper) = .ok merged
      ∧ merged.document = lower.document.merge above.document
      ∧ ∀ name ∈ merged.unresolved, name ∈ lower.unresolved ∨ name ∈ above.unresolved :=
  ⟨_, _, _, rfl, rfl, rfl, Document.fill_merge h base upper,
    fun _ => Document.mem_unresolved_merge⟩

/-- An overlay that replaces a token without a replacement by a number, and keeps another. -/
theorem resolve_merge_replaced :
    let values : Placeholder.Values := [("A", "7")]
    let base := Document.object [("a", .object [("b", .string "\x7b\x7bB\x7d\x7d")]),
      ("c", .string "\x7b\x7bC\x7d\x7d")]
    let upper := Document.object [("a", .object [("b", .string "\x7b\x7bA\x7d\x7d")])]
    Placeholder.NoObject values ∧ ∃ lower above merged, resolve values false base = .ok lower
      ∧ resolve values false upper = .ok above
      ∧ resolve values false (base.merge upper) = .ok merged
      ∧ merged.document = lower.document.merge above.document
      ∧ lower.document = base
      ∧ above.document = .object [("a", .object [("b", .number (.integer 7))])]
      ∧ merged.document = .object [("a", .object [("b", .number (.integer 7))]),
        ("c", .string "\x7b\x7bC\x7d\x7d")]
      ∧ lower.unresolved = ["B", "C"] ∧ merged.unresolved = ["C"]
      ∧ ∀ name ∈ merged.unresolved, name ∈ lower.unresolved ∨ name ∈ above.unresolved := by
  intro values base upper
  have hnone : Placeholder.NoObject values := by
    intro name value hvalue members hparse
    obtain ⟨rfl, rfl⟩ := Prod.mk.inj (List.mem_singleton.mp (Named.mem_of_lookup? hvalue))
    have hseven : Document.parse "7" = .ok (.number (.integer 7)) := rfl
    rw [hseven] at hparse
    injection hparse with hparse
    exact Document.noConfusion hparse
  obtain ⟨lower, above, merged, hlower, habove, hmerged, hdocument, hnames⟩ :=
    resolve_merge hnone base upper
  have hfilled : base.fill values = base := by with_unfolding_all rfl
  have habove' : upper.fill values = .object [("a", .object [("b", .number (.integer 7))])] := by
    with_unfolding_all rfl
  injection hlower with hlower
  injection habove with habove
  injection hmerged with hmerged
  subst hlower habove hmerged
  refine ⟨hnone, _, _, _, rfl, rfl, rfl, hdocument, hfilled, habove', ?_, ?_, ?_, hnames⟩
  · rw [hdocument]
    show (base.fill values).merge (upper.fill values) = _
    rw [hfilled, habove']
    rfl
  · decide +kernel
  · decide +kernel

/-- A placeholder that stands for an object makes a difference: filled in first it is merged, and
filled in last it replaces. -/
example :
    let values : Placeholder.Values := [("A", "\x7b\x7d")]
    let base := Document.object [("a", .object [("b", .null)])]
    let upper := Document.object [("a", .string "\x7b\x7bA\x7d\x7d")]
    ((base.merge upper).fill values).at? ["a", "b"] = none
      ∧ ((base.fill values).merge (upper.fill values)).at? ["a", "b"] = some .null := by
  constructor <;> with_unfolding_all rfl

end ChainGenesis
