import PassScheduler.Pass.Registry
import PassScheduler.Pass.Standard

/-!
Contract: the registry of exactly the standard passes, in their fixed order.

Does not own: what the passes do.
-/

namespace PassScheduler.StandardPass

/-- Registers some standard passes, up to the first that is refused. -/
def registerAll :
    List StandardPass → Registrations StandardPass →
      Except ConfigError (Registrations StandardPass)
  | [], registrations => .ok registrations
  | pass :: rest, registrations =>
      match registrations.register pass.descriptor fun _ => pass with
      | .error error => .error error
      | .ok registrations => registerAll rest registrations

def registrations : Except ConfigError (Registrations StandardPass) :=
  registerAll all .empty

def registry : Except ConfigError (Registry StandardPass) :=
  registrations.bind Registrations.build

end PassScheduler.StandardPass
