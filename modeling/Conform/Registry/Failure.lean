import Conform.Text.Quoted
/-!
# How registries fail

A registry fails to be finished when a key was registered twice or when keys that are referred to
are missing. A reference fails to resolve when its key is missing or its registry is gone.
-/

namespace Conform

/-- Why a registry cannot be finished, or a reference cannot be resolved. -/
inductive RegistryError where
  /-- A reference to a key without a shape. -/
  | unresolvedKey (key : String)
  /-- Every key that is referred to and has no shape. -/
  | unresolvedKeys (keys : List String)
  /-- A key that was registered twice. -/
  | duplicateKey (key : String)
  /-- A reference into a registry that is gone. -/
  | registryDropped (key : String)
deriving DecidableEq

namespace RegistryError

/-- The text of an error. -/
def message : RegistryError → String
  | .unresolvedKey key => "unable to find validator for key '" ++ key ++ "'"
  | .unresolvedKeys keys => "no validator registered for keys " ++ Text.quotedList keys
  | .duplicateKey key => "validator key '" ++ key ++ "' already registered"
  | .registryDropped key =>
    "registry for key '" ++ key ++ "' was dropped before the provider was resolved"

end RegistryError

end Conform
