import Lamplighter.Program.Basic

/-! The names a running instruction sees.

A call opens a scope inside that of its caller, so a name that a function does not
bind is looked up where the function was called from. -/

namespace Lamplighter

/-- The tables around the innermost one, nearest first. -/
structure Scope where
  bindings : Table Int
  outer : List (Table Int)
  deriving Repr, DecidableEq

namespace Scope

def root : Scope := ⟨.empty, []⟩

def push (scope : Scope) : Scope := ⟨.empty, scope.bindings :: scope.outer⟩

/-- There is nothing to leave the outermost scope for. -/
def pop (scope : Scope) : Scope :=
  match scope.outer with
  | [] => scope
  | bindings :: outer => ⟨bindings, outer⟩

/-- Binds a name innermost, whatever it means further out. -/
def set (scope : Scope) (name : String) (value : Int) : Scope :=
  { scope with bindings := scope.bindings.insert name value }

/-- The innermost binding of a name. -/
def find? (scope : Scope) (name : String) : Option Int :=
  (scope.bindings :: scope.outer).findSome? fun bindings => bindings.get? name

/-- The scope of a call: parameters and arguments pair up from the left, and what
is left over of either is dropped. -/
def enter (caller : Scope) (params : List String) (args : List Int) : Scope :=
  { caller.push with bindings := .ofList (params.zip args) }

@[simp] theorem pop_push (scope : Scope) : scope.push.pop = scope := rfl

theorem pop_enter (caller : Scope) (params : List String) (args : List Int) :
    (caller.enter params args).pop = caller := rfl

theorem find?_set (scope : Scope) (name other : String) (value : Int) :
    (scope.set name value).find? other = if other = name then some value else scope.find? other := by
  by_cases h : other = name <;> simp [set, find?, List.findSome?_cons, Table.get?_insert, h]

end Scope
end Lamplighter
