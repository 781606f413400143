set_option autoImplicit false

namespace Patchbay

/-- Where a part of a document comes from, which decides what its readers let pass: JSON text read in
place, JSON content put aside until the tag beside it is known, or a TOML manifest. -/
inductive Medium where
  | json
  | held
  | toml
deriving DecidableEq

end Patchbay
