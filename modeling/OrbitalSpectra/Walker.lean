set_option autoImplicit false

namespace OrbitalSpectra

inductive WalkerType
  | undefined
  | closed
  | collinear
  | nonCollinear
  deriving DecidableEq, Repr

namespace WalkerType

def all : List WalkerType := [undefined, closed, collinear, nonCollinear]

def name : WalkerType → String
  | undefined => "undefined"
  | closed => "closed"
  | collinear => "collinear"
  | nonCollinear => "non_collinear"

def code : WalkerType → Int
  | undefined => 0
  | closed => 1
  | collinear => 2
  | nonCollinear => 3

def ofCode? (code : Int) : Option WalkerType := all.find? fun w => w.code = code

def ofName? (name : String) : Option WalkerType := all.find? fun w => w.name = name

theorem of_code_code (w : WalkerType) : ofCode? w.code = some w := by
  cases w <;> rfl

end WalkerType

inductive Estimator
  | backPropagated
  | mixed
  deriving DecidableEq, Repr

namespace Estimator

def all : List Estimator := [backPropagated, mixed]

def name : Estimator → String
  | backPropagated => "back_propagated"
  | mixed => "mixed"

def ofName? (name : String) : Option Estimator := all.find? fun e => e.name = name

end Estimator

inductive FockSign
  | plus
  | minus
  deriving DecidableEq, Repr

namespace FockSign

def all : List FockSign := [plus, minus]

def name : FockSign → String
  | plus => "plus"
  | minus => "minus"

def ofName? (name : String) : Option FockSign := all.find? fun s => s.name = name

def observable (sign : FockSign) : String := "gen_fock_" ++ sign.name

end FockSign

end OrbitalSpectra
