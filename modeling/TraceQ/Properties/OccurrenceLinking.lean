import TraceQ.Projections.Linking
import TraceQ.Quality.Occurrence

/-! # Two forms of the linking rule

`can_link_occurrence` compares a component, or else an item, where the lookup of the replay compares the
item and the component. They part on components that several items share, on components named like an item,
and on the two ways to name none.
-/
namespace TraceQ.Properties
open Projections Quality
set_option autoImplicit false
set_option maxHeartbeats 250000

/-- The `WHERE` clause of the lookup in `rebuild_item`. -/
def lookedUp (itemId : String) (key : DefectKey) (occurrence : DefectOccurrence) : Bool :=
  decide (occurrence.itemId = itemId ∧ occurrence.key = key ∧ occurrence.status = .opened)

theorem findOpenOccurrence_eq (db : Database) (itemId : String) (key : DefectKey) :
    findOpenOccurrence db itemId key = db.defectOccurrences.find? (lookedUp itemId key) := rfl

/-- How one rule takes an occurrence for that of a defect of the item and the other does not. -/
inductive Confused (itemId : String) (component : Option String) (occurrence : DefectOccurrence) : Prop
  /-- Another item has the component. -/
  | sharedComponent (hitem : occurrence.itemId ≠ itemId) (hnamed : truthy component = true)
      (hsame : occurrence.componentInstanceId = component)
  /-- Another item has a component named like this one, and the defect names none. -/
  | namedLikeItem (hitem : occurrence.itemId ≠ itemId) (hunnamed : truthy component = false)
      (hnamed : truthy occurrence.componentInstanceId = true)
      (hsame : occurrence.componentInstanceId = some itemId)
  /-- The component is named like another item, whose occurrence names none. -/
  | namedLikeOther (hnamed : truthy component = true) (hitem : occurrence.itemId ≠ itemId)
      (hunnamed : truthy occurrence.componentInstanceId = false) (hsame : component = some occurrence.itemId)
  /-- Neither names a component, one by an empty text and the other by none at all. -/
  | emptyComponent (hitem : occurrence.itemId = itemId) (hunnamed : truthy component = false)
      (hunnamed' : truthy occurrence.componentInstanceId = false)
      (hdiffers : occurrence.componentInstanceId ≠ component)
  /-- The component of one is named like the item, and the other names none. -/
  | namedLikeOwn (hitem : occurrence.itemId = itemId) (hunnamed : truthy component = false)
      (hnamed : truthy occurrence.componentInstanceId = true)
      (hsame : occurrence.componentInstanceId = some itemId)
  | ownNamedLike (hitem : occurrence.itemId = itemId) (hnamed : truthy component = true)
      (hunnamed : truthy occurrence.componentInstanceId = false) (hsame : component = some itemId)

section Rules
variable {occurrence : DefectOccurrence} {itemId : String} {component : Option String} {defectType : String}

theorem lookedUp_iff {key : DefectKey} : lookedUp itemId key occurrence = true ↔
    occurrence.status = .opened ∧ occurrence.defectType = key.defectType ∧ occurrence.itemId = itemId ∧
      occurrence.componentInstanceId = key.componentInstanceId := by
  obtain ⟨defectType, component⟩ := key
  simp only [lookedUp, decide_eq_true_eq, DefectOccurrence.key, DefectKey.mk.injEq]
  tauto

theorem eq_some_of_truthy {text : Option String} (h : truthy text = true) (default : String) :
    text = some (text.getD default) := by
  cases text with
  | none => cases h
  | some value => rfl

/-- What the linking rule matches and the lookup does not. -/
theorem same_key_iff : ((if truthy occurrence.componentInstanceId then
      occurrence.componentInstanceId.getD occurrence.itemId else occurrence.itemId) =
        (if truthy component then component.getD itemId else itemId)) ↔
      (occurrence.itemId = itemId ∧ occurrence.componentInstanceId = component) ∨
        Confused itemId component occurrence := by
  cases hown : truthy occurrence.componentInstanceId <;> cases hnamed : truthy component <;>
    simp only [Bool.false_eq_true, if_true, if_false]
  · constructor
    · intro hitem
      by_cases hsame : occurrence.componentInstanceId = component
      · exact .inl ⟨hitem, hsame⟩
      · exact .inr (.emptyComponent hitem hnamed hown hsame)
    · rintro (⟨hitem, -⟩ | hconfused)
      · exact hitem
      · cases hconfused <;> simp_all
  · constructor
    · intro hsame
      have htext := eq_some_of_truthy hnamed itemId
      rw [← hsame] at htext
      by_cases hitem : occurrence.itemId = itemId
      · exact .inr (.ownNamedLike hitem hnamed hown (htext.trans (congrArg some hitem)))
      · exact .inr (.namedLikeOther hnamed hitem hown htext)
    · rintro (⟨-, hsame⟩ | hconfused)
      · rw [hsame, hnamed] at hown
        cases hown
      · cases hconfused <;> simp_all
  · constructor
    · intro hsame
      have htext := eq_some_of_truthy hown occurrence.itemId
      rw [hsame] at htext
      by_cases hitem : occurrence.itemId = itemId
      · exact .inr (.namedLikeOwn hitem hnamed hown htext)
      · exact .inr (.namedLikeItem hitem hnamed hown htext)
    · rintro (⟨-, hsame⟩ | hconfused)
      · rw [hsame, hnamed] at hown
        cases hown
      · cases hconfused <;> simp_all
  · have htext := eq_some_of_truthy hown occurrence.itemId
    have htext' := eq_some_of_truthy hnamed itemId
    constructor
    · intro hsame
      have hcomponent : occurrence.componentInstanceId = component := by rw [htext, htext', hsame]
      by_cases hitem : occurrence.itemId = itemId
      · exact .inl ⟨hitem, hcomponent⟩
      · exact .inr (.sharedComponent hitem hnamed hcomponent)
    · have hsame : occurrence.componentInstanceId = component →
          occurrence.componentInstanceId.getD occurrence.itemId = component.getD itemId := by
        intro heq
        rw [heq] at htext
        rw [heq]
        exact Option.some.inj (htext.symm.trans htext')
      rintro (⟨-, heq⟩ | hconfused)
      · exact hsame heq
      · clear htext htext'
        cases hconfused <;> simp_all

theorem confused_excludes (h : Confused itemId component occurrence) :
    ¬ (occurrence.itemId = itemId ∧ occurrence.componentInstanceId = component) := by
  rintro ⟨hitem, hsame⟩
  cases h <;> simp_all

/-- On one occurrence the two forms agree unless it is open, of the type, and confused. -/
theorem rules_agree_iff (sighting : Sighting) : (lookedUp itemId sighting.key occurrence = true ↔
    canLinkOccurrence occurrence itemId sighting.defect.defectType sighting.component = true) ↔
      (occurrence.status = .opened → occurrence.defectType = sighting.defect.defectType →
        ¬ Confused itemId sighting.component occurrence) := by
  rw [lookedUp_iff, canLinkOccurrence_iff, same_key_iff]
  have hexcludes : Confused itemId sighting.component occurrence →
      ¬ (occurrence.itemId = itemId ∧ occurrence.componentInstanceId = sighting.component) := confused_excludes
  show (_ ∧ occurrence.defectType = sighting.defect.defectType ∧ _ ∧
    occurrence.componentInstanceId = sighting.component ↔ _) ↔ _
  tauto

end Rules

/-- The lookup of the replay finds the occurrences that `can_link_occurrence` accepts exactly when no open
occurrence of the type is confused with one of the item. -/
theorem linking_rules_agree_iff (occurrences : List DefectOccurrence) (itemId : String) (sighting : Sighting) :
    (∀ occurrence ∈ occurrences, lookedUp itemId sighting.key occurrence = true ↔
      canLinkOccurrence occurrence itemId sighting.defect.defectType sighting.component = true) ↔
      ∀ occurrence ∈ occurrences, occurrence.status = .opened →
        occurrence.defectType = sighting.defect.defectType → ¬ Confused itemId sighting.component occurrence :=
  forall₂_congr fun _ _ => rules_agree_iff sighting

/-! ## A component moved to another item -/

def movedOccurrence : DefectOccurrence where
  id := 1
  itemId := "item-1"
  defectType := "burr"
  componentInstanceId := some "component-1"
  firstObservationId := ⟨"e-1"⟩
  currentObservationId := ⟨"e-1"⟩
  openedAt := 10

/-- The burr is seen again once the component is part of the second item. -/
def movedSighting : Sighting where
  observation :=
    { payload :=
        { inspectionResult := .defectDetected
          observationQuality := .good
          controlPointId := "CP-1"
          defects := [{ defectType := "burr", componentInstanceId := some "component-1" }] }
      itemId := some "item-2"
      operationRunId := none
      eventId := "e-2"
      occurredAt := 20
      trustStatus := .trusted
      trustReasons := [] }
  defect := { defectType := "burr", componentInstanceId := some "component-1" }

/-- The linking rule accepts the occurrence and the lookup does not find it. -/
theorem linking_rules_part : ¬ ∀ (occurrences : List DefectOccurrence) (itemId : String)
    (sighting : Sighting), ∀ occurrence ∈ occurrences,
      (lookedUp itemId sighting.key occurrence = true ↔ canLinkOccurrence occurrence itemId
        sighting.defect.defectType sighting.component = true) := by
  intro h
  have hmoved := h [movedOccurrence] "item-2" movedSighting movedOccurrence List.mem_cons_self
  revert hmoved
  decide +kernel

end TraceQ.Properties
