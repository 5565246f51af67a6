import RemoteSqlAgent.Interleaving
import RemoteSqlAgent.JsText
import Mathlib.Logic.Function.Basic

/-! Secrets on disk. A new one is written beside the old one and renamed over it, so that
each operation can fail and the file still has the old contents or the new ones. -/
namespace RemoteSqlAgent
open Js CallProgram

/-- The contents of the files, by their paths. -/
abbrev Disk := JsString → Option JsString

inductive FileCall where
  | mkdir (dir : JsString)
  /-- `join(dir, …)` of a random name. -/
  | temporary (dir : JsString)
  /-- `writeFileSync` with the flag `wx`. -/
  | writeNew (path contents : JsString) (mode : Nat)
  | chmod (path : JsString) (mode : Nat)
  | rename (path target : JsString)
  | unlink (path : JsString)

def FileAnswer : FileCall → Type
  | .mkdir _ => Except JsString Unit
  | .temporary _ => JsString
  | .writeNew _ _ _ => Except JsString Unit
  | .chmod _ _ => Except JsString Unit
  | .rename _ _ => Except JsString Unit
  | .unlink _ => Except JsString Unit

/-- What is thrown is a text. -/
abbrev FileProgram (α : Type) := CallProgram FileCall FileAnswer JsString α

def throwing : Except JsString Unit → FileProgram Unit
  | .ok _ => .done ()
  | .error message => .throw message

/-- Write the file beside, and put it in place. A mode that cannot be set is let be. -/
def replaceWith (temporary path contents : JsString) (mode : Nat) : FileProgram Unit := do
  CallProgram.call (.writeNew temporary contents mode) throwing
  CallProgram.call (.chmod temporary mode) fun _ => CallProgram.call (.rename temporary path) throwing

/-- Write a secret in place of whatever was there. What was begun is cleaned up if it
fails. -/
def writeSecretFile (dirname : JsString → JsString) (path contents : JsString) (mode : Nat) : FileProgram Unit := do
  CallProgram.call (.mkdir (dirname path)) throwing
  CallProgram.call (.temporary (dirname path)) fun temporary : JsString =>
    (replaceWith temporary path contents mode).tryCatch fun err =>
      CallProgram.call (.unlink temporary) fun _ => .throw err

/-- What an operation can answer and do. A random name is that of no file which is used;
a file that could not be written may be there in part. -/
def FileCall.Does (used : List JsString) (disk : Disk) : (call : FileCall) → FileAnswer call → Disk → Prop
  | .mkdir _, _, after => after = disk
  | .temporary _, path, after => path ∉ used ∧ after = disk
  | .writeNew path contents _, .ok _, after => disk path = none ∧ after = Function.update disk path (some contents)
  | .writeNew path _ _, .error _, after =>
    after = disk ∨ ∃ part, disk path = none ∧ after = Function.update disk path (some part)
  | .chmod _ _, _, after => after = disk
  | .rename path target, .ok _, after => ∃ contents, disk path = some contents ∧
    after = Function.update (Function.update disk path none) target (some contents)
  | .rename _ _, .error _, after => after = disk
  | .unlink path, .ok _, after => after = Function.update disk path none
  | .unlink _, .error _, after => after = disk

/-! ## What a write comes to -/

section Writes
variable {used : List JsString} {disk after : Disk} {transcript : List (Exchange FileAnswer)}
  {dirname : JsString → JsString}
  {path contents temporary : JsString} {mode : Nat} {ended : Except JsString Unit}

/-- Nothing that is used has changed. -/
def SameFiles (used : List JsString) (disk after : Disk) : Prop :=
  ∀ file ∈ used, after file = disk file

theorem SameFiles.trans {third : Disk} (first : SameFiles used disk after) (second : SameFiles used after third) :
    SameFiles used disk third :=
  fun file member => (second file member).trans (first file member)

theorem sameFiles_update (beside : temporary ∉ used) (contents : Option JsString) :
    SameFiles used disk (Function.update disk temporary contents) :=
  fun file member => Function.update_of_ne (fun same : file = temporary => beside (same ▸ member)) _ _

/-- The file that was renamed into place. -/
def renamedBy : Exchange FileAnswer → Option JsString
  | ⟨.rename _ target, .ok _⟩ => some target
  | _ => none

/-- The files that were put in place, in their order. -/
def renamedFiles (transcript : List (Exchange FileAnswer)) : List JsString := transcript.filterMap renamedBy

theorem renamedFiles_append (first second : List (Exchange FileAnswer)) :
    renamedFiles (first ++ second) = renamedFiles first ++ renamedFiles second :=
  List.filterMap_append

/-- A write ends with its file in place, or fails and leaves the files that are used as
they were. -/
inductive Replaced (used : List JsString) (path contents : JsString) (disk after : Disk) :
    List JsString → Except JsString Unit → Prop where
  | ok (written : after path = some contents) (others : ∀ file ∈ used, file ≠ path → after file = disk file) :
      Replaced used path contents disk after [path] (.ok ())
  | error (message : JsString) (same : SameFiles used disk after) : Replaced used path contents disk after []
    (.error message)

theorem alone_throwing {answer : Except JsString Unit}
    (alone : Alone (FileCall.Does used) disk (throwing answer) transcript after ended) :
    transcript = [] ∧ after = disk ∧ ended = answer := by
  cases answer with
  | ok _ => exact alone_done.mp alone
  | error message => exact alone_throw.mp alone

theorem alone_replaceWith (beside : temporary ∉ used)
    (alone : Alone (FileCall.Does used) disk (replaceWith temporary path contents mode) transcript after ended) :
    Replaced used path contents disk after (renamedFiles transcript) ended := by
  rcases alone_bind.mp alone with ⟨message, wrote, rfl⟩ | ⟨_, middle, first, second, rfl, wrote, alone⟩
  · obtain ⟨answer, last, rest, rfl, does, alone⟩ := alone_call.mp wrote
    obtain ⟨rfl, rfl, rfl⟩ := alone_throwing alone
    refine .error message ?_
    rcases does with rfl | ⟨part, -, rfl⟩
    · exact fun _ _ => rfl
    · exact sameFiles_update beside _
  · obtain ⟨answer, last, rest, rfl, does, wrote⟩ := alone_call.mp wrote
    obtain ⟨rfl, rfl, rfl⟩ := alone_throwing wrote
    obtain ⟨-, rfl⟩ := does
    obtain ⟨_, last, rest, rfl, changed, alone⟩ := alone_call.mp alone
    cases changed
    obtain ⟨answer, last, rest, rfl, does, alone⟩ := alone_call.mp alone
    obtain ⟨rfl, rfl, rfl⟩ := alone_throwing alone
    cases ended with
    | error message =>
      cases does
      exact .error message (sameFiles_update beside _)
    | ok _ =>
      obtain ⟨written, there, rfl⟩ := does
      rw [Function.update_self] at there
      cases there
      refine .ok (Function.update_self ..) fun file member different => ?_
      have apart : file ≠ temporary := fun same => beside (same ▸ member)
      rw [Function.update_of_ne different, Function.update_of_ne apart, Function.update_of_ne apart]

/-- A secret is replaced, or the files are what they were. -/
theorem alone_writeSecretFile
    (alone : Alone (FileCall.Does used) disk (writeSecretFile dirname path contents mode) transcript after ended) :
    Replaced used path contents disk after (renamedFiles transcript) ended := by
  rcases alone_bind.mp alone with ⟨message, made, rfl⟩ | ⟨_, middle, first, second, rfl, made, alone⟩
  · obtain ⟨answer, last, rest, rfl, does, made⟩ := alone_call.mp made
    obtain ⟨rfl, rfl, rfl⟩ := alone_throwing made
    cases does
    exact .error message fun _ _ => rfl
  · obtain ⟨answer, last, rest, rfl, does, made⟩ := alone_call.mp made
    obtain ⟨rfl, rfl, rfl⟩ := alone_throwing made
    cases does
    obtain ⟨temporary, next, later, rfl, ⟨beside, rfl⟩, tried⟩ := alone_call.mp alone
    rcases alone_tryCatch.mp tried with ⟨_, replaced, rfl⟩ | ⟨message, third, front, back, rfl, failed, caught⟩
    · have there := alone_replaceWith beside replaced
      exact there
    · obtain ⟨unlinked, fourth, ends, rfl, cleaned, thrown⟩ := alone_call.mp caught
      obtain ⟨rfl, rfl, rfl⟩ := alone_throw.mp thrown
      have replaced := alone_replaceWith beside failed
      change Replaced used path contents _ after (renamedFiles (front ++ [⟨.unlink temporary, unlinked⟩])) _
      rw [renamedFiles_append, show renamedFiles [⟨.unlink temporary, unlinked⟩] = [] from rfl, List.append_nil]
      generalize renamedFiles front = renamed at replaced ⊢
      cases replaced with
      | error _ same =>
        refine .error message (same.trans ?_)
        cases unlinked with
        | error _ =>
          cases cleaned
          exact fun _ _ => rfl
        | ok _ =>
          cases cleaned
          exact sameFiles_update beside _

end Writes

end RemoteSqlAgent
