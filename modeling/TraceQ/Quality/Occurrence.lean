import TraceQ.Quality.BirthWindow

/-! # Linking rule

`backend/app/quality/occurrence.py`.
-/
namespace TraceQ.Quality
set_option autoImplicit false
set_option maxHeartbeats 250000

/-- `component_instance_id or item_id`, and the type. -/
def defectKey (itemId defectType : String) (componentInstanceId : Option String) : String × String :=
  ((componentInstanceId.filter fun text => !text.isEmpty).getD itemId, defectType)

def canLinkOccurrence (occurrence : DefectOccurrence) (itemId defectType : String)
    (componentInstanceId : Option String) : Bool :=
  if occurrence.status ≠ .opened then false
  else decide (defectKey occurrence.itemId occurrence.defectType occurrence.componentInstanceId =
    defectKey itemId defectType componentInstanceId)

theorem defectKey_fst {itemId defectType : String} {component : Option String} :
    (defectKey itemId defectType component).1 = if truthy component then component.getD itemId else itemId := by
  cases component with
  | none => rfl
  | some text =>
    cases hempty : text.isEmpty <;> simp [defectKey, truthy, Option.filter, hempty]

theorem canLinkOccurrence_iff {occurrence : DefectOccurrence} {itemId defectType : String}
    {component : Option String} : canLinkOccurrence occurrence itemId defectType component = true ↔
      occurrence.status = .opened ∧ occurrence.defectType = defectType ∧
        (if truthy occurrence.componentInstanceId then occurrence.componentInstanceId.getD occurrence.itemId
          else occurrence.itemId) = if truthy component then component.getD itemId else itemId := by
  have hown : (defectKey occurrence.itemId occurrence.defectType occurrence.componentInstanceId).1 = _ :=
    defectKey_fst
  have hother : (defectKey itemId defectType component).1 = _ := defectKey_fst
  rw [← hown, ← hother]
  unfold canLinkOccurrence
  split
  · rename_i hclosed
    exact ⟨fun h => (by cases h), fun h => absurd h.1 hclosed⟩
  · rename_i hopen
    rw [decide_eq_true_eq, Prod.ext_iff]
    exact ⟨fun h => ⟨not_not.mp hopen, h.2, h.1⟩, fun h => ⟨h.2.2, h.2.1⟩⟩

end TraceQ.Quality
