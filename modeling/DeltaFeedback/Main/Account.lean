import DeltaFeedback.App.Config.RoundTrip
import DeltaFeedback.Main

namespace DeltaFeedback.Main

open Text App Config

variable (files : Files) (path : Bytes)

theorem Files.read_write (text other : Bytes) : (files.write path text).read other =
    if files.named other = files.named path then text else files.read other := by
  rw [read, write]
  exact Function.update_apply files.text (files.named path) text (files.named other)

-- A text of one line with no space, tab or carriage return at its ends.
structure Unpadded (s : Bytes) : Prop where
  newline : 10 ∉ s
  first : ∀ c ∈ s.head?, c ≠ 32 ∧ c ≠ 9 ∧ c ≠ 13
  last : ∀ c ∈ s.getLast?, c ≠ 32 ∧ c ≠ 9 ∧ c ≠ 13

structure Storable (k v : Bytes) : Prop where
  key : k ≠ [] ∧ 61 ∉ k ∧ k.head? ≠ some 35
  unpadded : Unpadded k ∧ Unpadded v

theorem Unpadded.tight {s : Bytes} (h : Unpadded s) : Tight isBlank s := by
  have hblank {c : UInt8} (hmem : c ∈ s) (hc : c ≠ 32 ∧ c ≠ 9 ∧ c ≠ 13) : isBlank c = false := by
    have hnewline : c ≠ 10 := by
      rintro rfl
      exact h.newline hmem
    simp [isBlank, hc, hnewline]
  rintro c (hhead | hlast)
  · exact hblank (List.mem_of_mem_head? hhead) (h.first c hhead)
  · exact hblank (List.mem_of_getLast? hlast) (h.last c hlast)

theorem Unpadded.of_printable {k v : Bytes} (h : Printable k v) : Unpadded v := by
  have hblank {c : UInt8} (hc : isBlank c = false) : c ≠ 32 ∧ c ≠ 9 ∧ c ≠ 13 := by
    simp only [isBlank, Bool.or_eq_false_iff, beq_eq_false_iff_ne] at hc
    exact ⟨hc.1.1.1, hc.1.1.2, hc.1.2⟩
  exact ⟨h.newline.2, fun c hhead => hblank (h.tightValue.head hhead),
    fun c hlast => hblank (h.tightValue.last hlast)⟩

theorem Storable.printable {k v : Bytes} (h : Storable k v) : Printable k v where
  newline := ⟨h.unpadded.1.newline, h.unpadded.2.newline⟩
  equals := h.key.2.1
  comment := h.key.2.2
  tightKey := h.unpadded.1.tight
  tightValue := h.unpadded.2.tight

theorem load_saveAccount {kv : List (Bytes × Bytes)} (hkv : ∀ pair ∈ kv, Printable pair.1 pair.2) :
    (load ((saveAccount files path kv).read path)).kv.Equiv ((load (files.read path)).setAll kv).kv := by
  rw [saveAccount, Files.read_write, if_pos rfl]
  exact ((allPrintable_load _).setAll hkv).load_save

theorem config_roundTrip {kv : List (Bytes × Bytes)} (hkv : ∀ pair ∈ kv, Storable pair.1 pair.2) :
    (∀ f, (load (load f).save).kv.Equiv (load f).kv) ∧
    ∀ key, (load ((saveAccount files path kv).read path)).kv[key]? =
      (kv.reverse.lookup key).or (load (files.read path)).kv[key]? := by
  refine ⟨fun f => (allPrintable_load f).load_save, fun key => ?_⟩
  have hsaved := load_saveAccount files path fun pair hmem => (hkv pair hmem).printable
  rw [hsaved.getElem?_eq, getElem?_setAll]

-- The address of a registration over that of an older one.
def registered : Files := ⟨fun _ => 0, fun _ => utf8 "# bot\n addr = old\r\ndb==x\n=\nnone"⟩

theorem config_roundTrip_registered :
    (∀ f, (load (load f).save).kv.Equiv (load f).kv) ∧
    ∀ key, (load ((saveAccount registered (utf8 "config.ini")
        [(utf8 "addr", utf8 "bot@example.org")]).read (utf8 "config.ini"))).kv[key]? =
      ([(utf8 "addr", utf8 "bot@example.org")].reverse.lookup key).or
        (load (registered.read (utf8 "config.ini"))).kv[key]? := by
  refine config_roundTrip registered (utf8 "config.ini") ?_
  rw [List.forall_mem_singleton]
  exact ⟨by decide +kernel, ⟨by decide +kernel, by decide +kernel, by decide +kernel⟩,
    ⟨by decide +kernel, by decide +kernel, by decide +kernel⟩⟩

end DeltaFeedback.Main
