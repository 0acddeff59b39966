import HumanMachine.Document.CompleteNetwork

/-!
# The tables and the tools of the complete network

What the tables have for a machine, in the network whose clients sample their own numbers: those
of a report which the tools of the machine have printed in one of its samplings.
-/

namespace HumanMachine.Client

open Program (Follows inr)
open Server (Gson Database)

section

variable {ι : Type} [DecidableEq ι] {gson : Gson} {toStyledString : Json → Bytes}
  {rounds bound : ι → ℕ} {location : ι → Bytes} {timeInterval : ι → ℤ} {db after : Database}
  {i : ι} {decode : Bytes → String} {mac : ℤ}

/-- No request reaches the servlet with this id. -/
def CompleteLabel.Foreign (gson : Gson) (macAddress : Double) : CompleteLabel → Prop
  | .tool _ => True
  | .shared label => label.Foreign gson macAddress

def CompleteLabel.Intact (gson : Gson) (toStyledString : Json → Bytes) : CompleteLabel → Prop
  | .tool _ => True
  | .shared label => label.Intact gson toStyledString

namespace Account

variable {place : Bytes} {seen : List CompleteLabel} {shown : List Label} {inside : List tools.Event}

theorem mem_shared (account : Account decode place seen shown inside) {label : Label}
    (mem : label ∈ shown) : label.isShared = false ∨ .shared label ∈ seen := by
  cases isShared : label.isShared with
  | false => exact .inl rfl
  | true =>
      have among : label ∈ shown.filter Label.isShared := List.mem_filter.mpr ⟨mem, isShared⟩
      rw [account.shared] at among
      rcases List.mem_filterMap.mp among with ⟨seenLabel, inSeen, same⟩
      cases seenLabel with
      | tool event => cases same
      | shared label' =>
          cases same
          exact .inr inSeen

theorem own_of_not_isShared {label : Label} (notShared : label.isShared = false) :
    ∃ event, label = .own event := by
  cases label with
  | own event => exact ⟨event, rfl⟩
  | _ => cases notShared

/-- The same requests have reached the servlet. -/
theorem lastRequest_eq (account : Account decode place seen shown inside) :
    lastRequest shown = lastRequest (seen.filterMap CompleteLabel.shared?) := by
  rw [lastRequest, lastRequest, ← account.shared, List.filterMap_filter]
  congr 1
  apply List.filterMap_congr
  intro label _
  cases isShared : label.isShared with
  | true => rfl
  | false =>
      rcases own_of_not_isShared isShared with ⟨event, rfl⟩
      rfl

/-- Each snapshot is the document of a sampling. -/
theorem exists_sampling (account : Account decode place seen shown inside) {root : Json}
    (mem : root ∈ shown.filterMap Label.snapshot) : ∃ outputs before later,
      seen.filterMap CompleteLabel.tool? = before ++ Outputs.events outputs ++ later ∧
      linuxCommand decode (decode place) outputs = some root := by
  rcases account.sampled with ⟨samplings, printed, documents⟩
  have found : ∃ outputs ∈ samplings, linuxCommand decode (decode place) outputs = some root := by
    clear printed
    generalize shown.filterMap Label.snapshot = roots at mem documents
    induction documents with
    | nil => cases mem
    | @cons outputs first samplings roots document rest ih =>
        rcases List.mem_cons.mp mem with rfl | mem
        · exact ⟨outputs, List.mem_cons_self, document⟩
        · rcases ih mem with ⟨outputs', among, document'⟩
          exact ⟨outputs', List.mem_cons_of_mem _ among, document'⟩
  rcases found with ⟨outputs, inSamplings, document⟩
  rcases List.append_of_mem inSamplings with ⟨front, back, rfl⟩
  refine ⟨outputs, front.flatMap Outputs.events, back.flatMap Outputs.events ++ inside, ?_, document⟩
  rw [printed]
  simp

end Account

end

/-! ### A machine which reports -/

theorem Outputs.length_events (outputs : Outputs) : outputs.events.length = 25 := rfl

theorem Outputs.events_injective : Function.Injective Outputs.events := by
  intro outputs other same
  simp only [events, streamed, List.cons_append, List.nil_append, List.cons.injEq, Sigma.mk.injEq,
    heq_eq_eq, Option.some.injEq, true_and, and_true] at same
  cases outputs
  cases other
  simp_all

theorem reporting_tools : reporting.filterMap CompleteLabel.tool? = labReport.outputs.events := by
  rw [reporting]
  simp [Function.comp_def, CompleteLabel.tool?, List.filterMap_map]

theorem reporting_shared :
    reporting.filterMap CompleteLabel.shared? = projection () sampledLabels := by
  rw [reporting]
  simp [Function.comp_def, CompleteLabel.shared?, List.filterMap_map]

theorem reporting_intact : ∀ label ∈ reporting, label.Intact reportGson reportWriter := by
  intro label mem
  rcases List.mem_append.mp mem with printed | shared
  · rcases List.mem_map.mp printed with ⟨event, _, rfl⟩
    trivial
  · rcases List.mem_map.mp shared with ⟨label, inLabels, rfl⟩
    have checked := List.all_eq_true.mp sampledLabels_checked.1 _ inLabels
    rw [Bool.and_eq_true] at checked
    exact intact_of_intactForReport checked.2

/-- The other machine is at no step with the servlet. -/
theorem sampledTranscript_others : ∀ turn ∈ sampledTranscript, turn.1 ≠ false →
    turn.2.Foreign reportGson (.fin labReport.mac) := by
  rintro ⟨second, label⟩ mem different
  cases second with
  | false => exact absurd rfl different
  | true =>
      have own := mem_projection.mpr mem
      rw [projection_sampledTranscript.2] at own
      rcases List.mem_map.mp own with ⟨event, _, rfl⟩
      trivial

end HumanMachine.Client
