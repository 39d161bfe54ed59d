import Keypad.Storage.FileSystem
import Keypad.Storage.Slots

/-!
Contract: what the calculator asks of a store of named texts.

Owns:
- the interface: look-up, setting and removal, each of which may fail, also after a change;
- the store in memory, which never fails.

Does not own: stores in files, what the texts mean.
-/

namespace Keypad

/-- A store of named texts. A failed change still gives the state after it. -/
class KeyValueStore (σ : Type) where
  get : σ → String → Except FileFault (Option String)
  set : σ → String → String → Except FileFault Unit × σ
  remove : σ → String → Except FileFault Unit × σ

/-- A store that is gone when the program ends. -/
structure MemoryStore where
  slots : Slots

namespace MemoryStore

def empty : MemoryStore := ⟨.empty⟩

instance : Inhabited MemoryStore := ⟨empty⟩

instance : KeyValueStore MemoryStore where
  get store name := .ok (store.slots.get? name)
  set store name value := (.ok (), ⟨store.slots.insert name value⟩)
  remove store name := (.ok (), ⟨store.slots.erase name⟩)

end MemoryStore

end Keypad
