import Bindery.Binding.Build
import Bindery.Proofs.Name.Grant

namespace Bindery

/-- The name that was asked for, the name that was given, and what has it. -/
structure Naming where
  wanted : Text
  given : Text
  subject : Text

/-- What is reported of a naming: nothing, unless the name is not the wanted one. -/
def Naming.collision? (n : Naming) : Option Diagnostic :=
  if n.given = n.wanted then none else some (.nameCollision n.wanted n.given n.subject)

def Diagnostic.isCollision : Diagnostic → Bool
  | .nameCollision .. => true
  | _ => false

theorem Naming.isCollision_of_collision? {n : Naming} {d : Diagnostic}
    (h : n.collision? = some d) : d.isCollision = true := by
  unfold collision? at h
  split at h
  · cases h
  · cases h
    rfl

def Request.naming (r : Request) (given : Text) : Naming :=
  ⟨r.wanted, given, r.subject⟩

namespace Grant

variable (separator : Text) (taken : List Text)

theorem collision_answer (r : Request) :
    (answer separator taken r).collision =
      (r.naming (answer separator taken r).name).collision? := by
  have hn := answer_not_mem separator taken r
  rw [Naming.collision?, Request.naming]
  by_cases hw : r.wanted ∈ taken
  · have hne : (answer separator taken r).name ≠ r.wanted := fun he => hn (he ▸ hw)
    rw [if_neg hne, answer, if_pos (List.contains_iff_mem.mpr hw)]
  · rw [answer, if_neg (by simpa using hw), if_pos rfl]

theorem map_some_answerAll (requests : List Request) :
    (answerAll separator taken requests).map some =
      answerEach separator taken (requests.map some) := by
  induction requests generalizing taken with
  | nil => rfl
  | cons r rest ih => exact congrArg (some (answer separator taken r) :: ·) (ih _)

theorem length_answerEach (requests : List (Option Request)) :
    (answerEach separator taken requests).length = requests.length := by
  simpa using congrArg List.length (isSome_answerEach separator taken requests)

theorem length_answerAll (requests : List Request) :
    (answerAll separator taken requests).length = requests.length := by
  have hl := congrArg List.length (map_some_answerAll separator taken requests)
  rwa [List.length_map, length_answerEach, List.length_map] at hl

theorem granted_map_some (grants : List Grant) : granted (grants.map some) = grants.map name := by
  rw [granted, List.filterMap_map]
  exact congrFun List.filterMap_eq_map grants

theorem nodup_answerAll (requests : List Request) :
    ((answerAll separator taken requests).map name).Nodup ∧
      ∀ given ∈ (answerAll separator taken requests).map name, given ∉ taken := by
  rw [← granted_map_some, map_some_answerAll]
  exact granted_answerEach separator taken (requests.map some)

/-- Requests that follow others are answered with more names taken. -/
theorem exists_answerEach_append (front back : List (Option Request)) :
    ∃ after, answerEach separator taken (front ++ back) =
      answerEach separator taken front ++ answerEach separator after back := by
  induction front generalizing taken with
  | nil => exact ⟨taken, rfl⟩
  | cons request front ih =>
    cases request with
    | none =>
      obtain ⟨after, h⟩ := ih taken
      exact ⟨after, congrArg (none :: ·) h⟩
    | some r =>
      obtain ⟨after, h⟩ := ih ((answer separator taken r).name :: taken)
      exact ⟨after, congrArg (some (answer separator taken r) :: ·) h⟩

end Grant

end Bindery
