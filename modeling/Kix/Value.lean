import Kix.Frame
import Kix.Number.Text
import Kix.Syntax.Tree

/-!
# Values

What expressions evaluate to. Functions are values of two sorts: **closures**,
made by executing a function declaration, and the **native** functions that
every program finds in its global scope.
-/

namespace Kix

/-- The functions that are there from the start. -/
inductive Native where
  | clock | print | println
  deriving DecidableEq, Repr

namespace Native

def all : List Native := [clock, print, println]

/-- The global name of a native function. -/
def name : Native → String
  | clock => "clock" | print => "print" | println => "println"

/-- The number of arguments a native function takes. -/
def arity : Native → Nat
  | clock => 0
  | print | println => 1

end Native

/-- A function together with the frame in which its declaration was executed.
Each execution of a declaration makes a closure of its own, told apart from the
others by its `id`. -/
structure Closure where
  id : Nat
  name : String
  params : List Token
  body : List Stmt
  scope : Option FrameRef

inductive Value where
  | nil
  | bool (value : Bool)
  | number (value : Float)
  | string (value : String)
  | closure (value : Closure)
  | native (value : Native)

instance : Inhabited Value := ⟨.nil⟩

namespace Value

/-- The value that a literal denotes. -/
def ofLiteral : Literal → Value
  | .number x => number x
  | .string s => string s
  | .bool b => bool b
  | .nil => nil

/-- Everything is true but `nil` and `false`. -/
def isTruthy : Value → Bool
  | nil | bool false => false
  | _ => true

/-- The number of arguments a function takes; other values are no functions. -/
def arity? : Value → Option Nat
  | closure c => some c.params.length
  | native n => some n.arity
  | nil | bool _ | number _ | string _ => none

/-- **The equality that `==` tests.** Numbers are compared as numbers, so a
value that is not a number differs from itself; closures by identity. -/
def equals : Value → Value → Bool
  | nil, nil => true
  | bool a, bool b => a == b
  | number a, number b => a == b
  | string a, string b => a == b
  | closure a, closure b => a.id == b.id
  | native a, native b => a == b
  | _, _ => false

/-- **The text of a value**, as a program prints it. -/
def display : Value → String
  | nil => "nil"
  | bool b => if b then "true" else "false"
  | number x => Number.display x
  | string s => s
  | closure c => s!"<fn {c.name}>"
  | native n => s!"<native fn {n.name}>"

end Value

end Kix
