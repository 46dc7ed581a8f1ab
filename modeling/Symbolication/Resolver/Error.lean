import Symbolication.Files.Reading
import Symbolication.Resolver.Backend

/-!
What can go wrong when symbols are loaded, and how it is worded.
-/

namespace Symbolication

inductive ResolverError where
  | alreadyLoaded (codeFile : String)
  | file (error : FileError)
  | parse (codeFile : String) (error : ParseError)
  | memoryRead (address : Address)
  deriving DecidableEq, Repr

namespace ResolverError

def message : ResolverError → String
  | alreadyLoaded codeFile => "Symbols for module " ++ codeFile ++ " already loaded"
  | file e => e.message
  | parse codeFile e => "Failed to load symbols for module " ++ codeFile ++ ": " ++ e.message
  | memoryRead address => "Unable to read memory at " ++ address.text

instance : ToString ResolverError := ⟨message⟩

/-- The message of the error behind this one. A file error stands for itself, so what is behind it
is its own cause. -/
def source? : ResolverError → Option String
  | file e => e.cause?.map IoError.text
  | parse _ e => some e.message
  | alreadyLoaded _ | memoryRead _ => none

end ResolverError

end Symbolication
