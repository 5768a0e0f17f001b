/-
# LipSync.Note — what the library tells whoever keeps its log.

A note is a text with a level. Notes say what happened and change nothing: each one can be worked
out from the outcome that it reports, and the rules of the library never read them.
-/

namespace LipSync

/-- How much a note matters, from the least to the most. -/
inductive Level where
  | trace
  | debug
  | warn
  | error
  deriving DecidableEq, Inhabited

/-- One entry for the log. -/
structure Note where
  level : Level
  text : String
  deriving DecidableEq, Inhabited

end LipSync
