import GoCheck.Type.Query

/-!
# The universe

The store at the start of a check: the predeclared types, constants and `nil`, in the outermost
scope.
-/

namespace GoCheck

namespace Build

def predeclare (o : Object) : Build ObjectId := do
  let key ← newObject o
  modify fun s => (s.bind universeScope key).2
  pure key

def basicType (k : BasicKind) : Build Unit := do
  let t ← newType (.basic k)
  unless k.isUntyped || k = .invalid do
    discard <| predeclare { entity := .typeName, name := k.name, type := some t }

def errorType : Build Unit := do
  let result ← newParam Span.dummy none "" (some (.basic .string))
  let results ← newType (.tuple [result])
  let sig ← newType (.signature { params := .noValue, results })
  let method ← newFunc Span.dummy none "Error" (some sig)
  let iface ← newType (.interface { methods := [method] })
  let object ← predeclare { entity := .typeName, name := "error" }
  let t ← newType (.named { object, underlying := iface })
  setObject object (·.setType (some t))

/-- All predeclared entities. Basic types come first, in order. -/
def predeclared : Build Unit := do
  discard <| newScope none 0 0 "universe" false
  BasicKind.all.forM basicType
  discard <| newType (.tuple [])
  errorType
  let any ← newType (.interface {})
  discard <| predeclare { entity := .typeName, name := "any", type := some any }
  for (name, value) in [("true", true), ("false", false)] do
    discard <| predeclare
      { entity := .const (.bool value), name, type := some (.basic .untypedBool) }
  discard <| predeclare { entity := .nil, name := "nil", type := some (.basic .untypedNil) }

end Build

def Store.initial : Store := (Build.predeclared.run {}).2

theorem Store.initial_basic (k : BasicKind) : initial.type (.basic k) = .basic k := by
  have hall : ∀ k ∈ BasicKind.all, initial.type (.basic k) = .basic k := by decide +kernel
  exact hall k (by cases k <;> decide)

end GoCheck
