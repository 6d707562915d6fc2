import Hypernote.Foundation.PyTokens
import Hypernote.InterruptSnippet
/-!
# The program of an interrupt

Whatever the id of a subshell is, the program that interrupts it is the same one: the id is in the
value of one string and nowhere else.
-/

namespace Hypernote.InterruptSnippet

open Foundation Foundation.PyTokens

theorem reads_assignment (printable : Char → Bool) (s : Chars) :
    Reads (.lineStart 0) ("_target_name = ".toList ++ PyText.repr printable s ++ ['\n'])
      (.lineStart 0)
      [.indent 0, .word "_target_name".toList, .operator ['='], .str s, .newline] := by
  have hname : Reads (.lineStart 0) "_target_name = ".toList .between
      [.indent 0, .word "_target_name".toList, .operator ['=']] := by rfl
  exact (hname.append (reads_repr printable s)).append (reads_one rfl)

/-- The code of an interrupt consists of the same tokens for every subshell, but for the one string
that is assigned to `_target_name`: this is the name of the thread of the subshell. -/
theorem interrupt_runs_one_program :
    ∃ first last : List Token, tokens (text imports) = some first ∧
      tokens (text raising) = some last ∧
      ∀ (printable : Char → Bool) (subshellId : Chars),
        tokens (interruptMessage printable subshellId).code =
          some (first ++
            [.indent 0, .word "_target_name".toList, .operator ['='], .str (targetName subshellId),
              .newline] ++ last) := by
  obtain ⟨first, hfirst⟩ := exists_tokens_flatMap imports (by decide +kernel)
  obtain ⟨last, hlast⟩ := exists_tokens_flatMap raising (by decide +kernel)
  refine ⟨first, last, hfirst, hlast, fun printable subshellId => tokens_eq_some_iff.mpr ?_⟩
  rw [tokens_eq_some_iff] at hfirst hlast
  exact (hfirst.append (reads_assignment printable (targetName subshellId))).append hlast

end Hypernote.InterruptSnippet
