import Parmana.Js.Value

/-! # The binder of signals to the Intent

A policy that declares `boundSignals` asserts that these signals describe the same
action as the Intent.  Before any rule is evaluated, each of them is compared by
`===` with the value of the Intent at its path, and a signal that differs is a
violation.
-/
namespace Parmana.Policy
open Js

/-- What a dot-path resolves against: the Intent's target and parameters. -/
structure IntentSnapshot where
  target : Option JsString
  parameters : Option Fields
  deriving DecidableEq

/-- The snapshot as an object; a member that is `undefined` reads like an absent
one. -/
def IntentSnapshot.fields (intent : IntentSnapshot) : Fields :=
  match intent.target, intent.parameters with
  | none, none => []
  | some t, none => [("target", .str t)]
  | none, some ps => [("parameters", .obj ps)]
  | some t, some ps => [("target", .str t), ("parameters", .obj ps)]

/-- `resolveIntentPath`: a missing segment reads `undefined`. -/
def resolveIntentPath (intent : IntentSnapshot) (path : JsString) : JsValue :=
  path.splitDots.foldl JsValue.get (.json (.obj intent.fields))

/-- `SignalIntentBindingViolation`. -/
structure SignalIntentBindingViolation where
  signalKey : JsString
  intentPath : JsString
  signalValue : JsValue
  intentValue : JsValue
  deriving DecidableEq

namespace SignalIntentBinder

/-- The body of the loop over the bindings. -/
def checkBindings (signals : Fields) (intent : IntentSnapshot) :
    Fields → Except JsError (List SignalIntentBindingViolation)
  | [] => .ok []
  | (signalKey, .str intentPath) :: rest => do
    let signalValue := JsValue.getFields signals signalKey
    let intentValue := resolveIntentPath intent intentPath
    let violations ← checkBindings signals intent rest
    if JsValue.strictEq signalValue intentValue then return violations
    else return ⟨signalKey, intentPath, signalValue, intentValue⟩ :: violations
  | _ :: _ => typeError

/-- `SignalIntentBinder.findViolations`. -/
def findViolations (policy : Json) (signals : Fields) (intent : IntentSnapshot) :
    Except JsError (List SignalIntentBindingViolation) := do
  let bindings ← (JsValue.json policy).member "boundSignals"
  if bindings.truthy then checkBindings signals intent bindings.entries else return []

end SignalIntentBinder

end Parmana.Policy
