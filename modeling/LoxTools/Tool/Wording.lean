import LoxTools.CommandLine.Basic

/-!
# Texts that are not the tool's own

The reader of settings files explains in its own words why it does not understand a text, and the reader
of command lines lays out the help that it is asked for. A run shows these texts and does not look
into them, so it can be told without knowing them: it is told for any `Wording`. Where none is
given, both readers have nothing to say.
-/

namespace LoxTools

/-- **The texts that a run shows but does not make.** -/
class Wording where
  /-- why the reader of settings files does not understand a text -/
  malformed : String → String
  /-- the help on a topic, the long one if so asked -/
  help : HelpTopic → Bool → String

/-- Readers that have nothing to say. -/
instance : Wording := ⟨fun _ => "", fun _ _ => ""⟩

end LoxTools
