/-!
# Wording

Readers of JSON and of settings say in their own words why they refuse a text. These words are shown
as they are, and nothing else depends on them.
-/

namespace Provenance

/-- What is said about a text that is refused: as a source map, as the reply of a program, or as
settings. -/
structure Wording where
  map : String → String
  reply : List UInt8 → String
  settings : String → String

end Provenance
