import Symbolication.Logging.Record
import Symbolication.SymbolFile.Load
import Symbolication.SymbolFile.Query
import Symbolication.Text.Quoted

/-!
The wording of what loads and queries have to report.
-/

namespace Symbolication.SymbolFile

def LoadNotice.log (name : String) : LoadNotice → LogRecord
  | notUtf8 => ⟨.debug, name ++ ": symbol data is not valid UTF-8, decoding lossily", []⟩
  | droppedLine line =>
    ⟨.debug, name ++ ": dropping overlapping line record at line " ++ toString line, []⟩
  | droppedFunction function base =>
    ⟨.warn, name ++ ": dropping FUNC " ++ function ++ " at " ++ Digits.hexText base
      ++ " (empty or overlapping range)", []⟩
  | droppedCfiInit base =>
    ⟨.warn, name ++ ": dropping STACK CFI INIT at " ++ Digits.hexText base
      ++ " (empty or overlapping range)", []⟩
  | mismatchedLayout base type hasProgram =>
    ⟨.warn, name ++ ": STACK WIN at " ++ Digits.hexText base ++ " has type " ++ toString type
      ++ " but has_program_string=" ++ toString hasProgram ++ ", discarding", []⟩
  | droppedLayout base =>
    ⟨.debug, name ++ ": dropping overlapping STACK WIN at " ++ Digits.hexText base, []⟩
  | loaded functions publicSymbols =>
    ⟨.debug, name ++ ": loaded " ++ toString functions ++ " functions, "
      ++ toString publicSymbols ++ " public symbols", []⟩

def Tables.RefusedRuleSet.log (name : String) (r : Tables.RefusedRuleSet) : LogRecord where
  level := .debug
  message := "rejected CFI rule set " ++ Quoted.text r.ruleSet ++ ": " ++ r.error.message
  fields := [("module", name)]

end Symbolication.SymbolFile
