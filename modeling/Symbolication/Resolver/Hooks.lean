import Symbolication.CodeModule
import Symbolication.Logging.Record
import Symbolication.OrderedMap.Basic
import Symbolication.SymbolBuffer

/-!
What happens to symbol buffers around loads and unloads. A resolver hands every buffer to its hooks
before it is parsed, when they may change it, and again, for good, when the load is over. Hooks keep
what they need in a state of their own type.
-/

namespace Symbolication

structure Hooks (σ : Type) where
  /-- The buffer to parse in place of the one that was read. -/
  store : σ → CodeModule → SymbolBuffer → σ × SymbolBuffer
  /-- Takes over the buffer after the load; the flag tells whether the module was registered. -/
  release : σ → CodeModule → SymbolBuffer → Bool → Logged σ
  /-- Releases what is held for a module that was unloaded, if it ever was loaded. -/
  unload : σ → CodeModule → Logged σ
  clear : σ → σ

namespace Hooks

/-- Hooks that let go of every buffer when its load is over. -/
def discarding : Hooks Unit where
  store s _ b := (s, b)
  release s _ _ _ := ⟨s, []⟩
  unload s _ := ⟨s, []⟩
  clear s := s

end Hooks

/-- Buffers held for loaded modules, by code file. -/
abbrev RetainedBuffers := OrderedMap String SymbolBuffer

namespace RetainedBuffers

/-- The bytes held, with the nul byte after each buffer. -/
def byteCount (r : RetainedBuffers) : Nat := r.values.foldl (fun n b => n + (b.size + 1)) 0

/-- Holds the buffer of a load that registered its module. Any other load leaves things as they
are, since the module that is registered still needs its own buffer. -/
def retain (r : RetainedBuffers) (m : CodeModule) (b : SymbolBuffer) (registered : Bool) :
    Logged RetainedBuffers :=
  if registered then
    ⟨r.insert m.codeFile b,
      [⟨.debug, "retaining symbol buffer", [("module", m.codeFile), ("bytes", toString b.size)]⟩]⟩
  else ⟨r, []⟩

def release (r : RetainedBuffers) (m : CodeModule) : Logged RetainedBuffers :=
  if r.contains m.codeFile then
    ⟨r.erase m.codeFile, [⟨.debug, "released symbol buffer", [("module", m.codeFile)]⟩]⟩
  else ⟨r, []⟩

end RetainedBuffers

namespace Hooks

/-- Hooks that hold the buffer of each module until the module is unloaded. -/
def retaining : Hooks RetainedBuffers where
  store s _ b := (s, b)
  release s m b registered := s.retain m b registered
  unload s m := s.release m
  clear _ := ∅

end Hooks

end Symbolication
