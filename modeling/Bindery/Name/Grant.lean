import Bindery.Diagnostic

namespace Bindery

/-- A wish for a name: what is wanted, what to try if that is taken, and what is being named. -/
structure Request where
  wanted : Text
  alternative : Option Text
  subject : Text

/-- A name that was handed out, with the collision that was met. -/
structure Grant where
  name : Text
  collision : Option Diagnostic

namespace Grant

/-- The numbered name `base` with `separator` and the number behind it. -/
def numbered (separator base : Text) (n : Nat) : Text :=
  base ++ separator ++ Text.ofNat n

/-- The first numbered name that is not taken; the numbers begin with two. -/
def firstFree (separator base : Text) (taken : List Text) : Text :=
  let candidates := (List.range (taken.length + 1)).map fun i => numbered separator base (i + 2)
  (candidates.find? fun name => !taken.contains name).getD base

/-- Answers one request when the names `taken` are gone. -/
def answer (separator : Text) (taken : List Text) (r : Request) : Grant :=
  if taken.contains r.wanted then
    let free := r.alternative.filter fun name => !taken.contains name
    let name := free.getD (firstFree separator r.wanted taken)
    ⟨name, some (.nameCollision r.wanted name r.subject)⟩
  else ⟨r.wanted, none⟩

/-- Answers the requests that are there, in order; each answer takes its name. -/
def answerEach (separator : Text) (taken : List Text) : List (Option Request) → List (Option Grant)
  | [] => []
  | none :: rest => none :: answerEach separator taken rest
  | some r :: rest =>
    let grant := answer separator taken r
    some grant :: answerEach separator (grant.name :: taken) rest

def answerAll (separator : Text) (taken : List Text) : List Request → List Grant
  | [] => []
  | r :: rest =>
    let grant := answer separator taken r
    grant :: answerAll separator (grant.name :: taken) rest

end Grant

end Bindery
