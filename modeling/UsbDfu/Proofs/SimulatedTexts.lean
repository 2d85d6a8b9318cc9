import UsbDfu.Proofs.SimulatedDiscovery

/-!
# Texts of a simulated device

A device keeps its texts in UTF-16, each in a descriptor that begins with its own length. A host reads
that one byte first, and then the whole descriptor. Asked in language 0, the device gives the table of
its languages, whose units are no text.

- `Simulator.ServesTexts`: the device gives every text that it stores.
- `texts_read_back`: a text comes back as it was stored, and units that are no text as they are.
-/

namespace UsbDfu

open Bench (SingleBoard Simulator)

namespace Bench.Simulator

variable {s : Simulator} {index : UInt8}

/-- The device is open, and has an interface claimed if it wants that for its texts. -/
structure ServesTexts (s : Simulator) : Prop where
  connected : s.connected = true
  isOpen : s.isOpen = true
  claimed : s.stringsNeedClaim = true → s.claimed.isSome = true

theorem ServesTexts.givenName_eq (h : s.ServesTexts) (hindex : index ≠ 0) :
    s.givenName index = s.strings.lookup index := by
  have hwilling : ¬ (s.stringsNeedClaim && s.claimed.isNone) = true := by
    rw [Bool.and_eq_true, Option.isNone_iff_eq_none]
    rintro ⟨hneeds, hnone⟩
    have hclaimed := h.claimed hneeds
    rw [hnone] at hclaimed
    cases hclaimed
  rw [givenName, if_neg hwilling, storedName, if_neg hindex]

/-- The table of languages is a descriptor of one unit, in whatever language it is asked for. -/
theorem descriptorBytes_languages (s : Simulator) (language : UInt16) :
    s.descriptorBytes Descriptor.textType 0 language =
      .ok (TextDescriptor.ofUnits [TextDescriptor.english]) := rfl

end Bench.Simulator

/-- Every text whose units fit into a string descriptor is read back from it in every language but 0,
whatever bytes follow it. A simulated device that is open and gives its texts gives each one, in the two
reads, under every index but 0 at which it stores the text. In language 0 the units of a descriptor are
given as they are, also those that are no text, and so is the device's table of languages. -/
theorem texts_read_back :
    (∀ text, (Text.Utf16.encode text.toList).length ≤ 126 →
      (∀ language junk, language ≠ 0 →
        TextDescriptor.decode (TextDescriptor.encode text ++ junk) language = .ok (.text text)) ∧
      ∀ (s : Simulator) (index : UInt8), s.ServesTexts → index ≠ 0 →
        s.strings.lookup index = some text →
        ∀ w : SingleBoard, w.board = { model := .simulator s, budget := none } →
          ∃ w', SingleBoard.run (readText index 0x0409) w = (.done (.text text), w') ∧
            w'.board = w.board) ∧
    (∀ units junk, units.length ≤ 126 →
      TextDescriptor.decode (TextDescriptor.ofUnits units ++ junk) 0 = .ok (.languages units)) ∧
    ∀ s : Simulator, s.ServesTexts →
      ∀ w : SingleBoard, w.board = { model := .simulator s, budget := none } →
        ∃ w', SingleBoard.run (readText 0 0) w = (.done (.languages [0x0409]), w') ∧
          w'.board = w.board := by
  refine ⟨fun text hfits => ⟨fun language junk hlanguage => ?_, fun s index hs hindex hname w hw => ?_⟩,
    fun units junk hfits => ?_, fun s hs w hw => ?_⟩
  · exact TextDescriptor.decode_encode hfits hlanguage junk
  · have hgiven := (hs.givenName_eq hindex).trans hname
    have hrun := runs_readText (a := .ofBoard s w) (Simulator.checkOpen_eq hs.connected hs.isOpen)
      hindex hgiven hfits
    obtain ⟨w', hdone, hw'⟩ := hrun w (Scene.on_ofBoard hw)
    exact ⟨w', hdone, hw'.board.trans hw.symm⟩
  · rw [TextDescriptor.decode_ofUnits hfits, if_pos rfl]
  · have hrun := runs_readText_ofUnits (a := .ofBoard s w)
      (Simulator.checkOpen_eq hs.connected hs.isOpen) (by decide) (s.descriptorBytes_languages 0)
    obtain ⟨w', hdone, hw'⟩ := hrun w (Scene.on_ofBoard hw)
    exact ⟨w', hdone, hw'.board.trans hw.symm⟩

/-- The loader once its interface is claimed. -/
def clefLoaderClaimed : Simulator :=
  { clefLoader.guarding true with isOpen := true, claimed := some 1 }

/-- A text with a character beyond 16 bits, with junk behind its descriptor and on a device that guards
it; a unit that is half of such a character; and the languages of the device. -/
theorem texts_read_back_clef :
    let w := SingleBoard.ofBoard { model := .simulator clefLoaderClaimed, budget := none }
    TextDescriptor.decode (TextDescriptor.encode "Flash 𝄞" ++ [0x42]) 0x0407 = .ok (.text "Flash 𝄞") ∧
    (∃ w', SingleBoard.run (readText 4 0x0409) w = (.done (.text "Flash 𝄞"), w')) ∧
    TextDescriptor.decode (TextDescriptor.ofUnits [0x0407, 0xd834] ++ [0x42]) 0 =
      .ok (.languages [0x0407, 0xd834]) ∧
    ∃ w', SingleBoard.run (readText 0 0) w = (.done (.languages [0x0409]), w') := by
  intro w
  have hserves : clefLoaderClaimed.ServesTexts := ⟨rfl, rfl, fun _ => rfl⟩
  obtain ⟨htexts, hunits, hlanguages⟩ := texts_read_back
  obtain ⟨hdecode, hread⟩ := htexts "Flash 𝄞" (by decide)
  obtain ⟨w₁, hw₁, -⟩ := hread clefLoaderClaimed 4 hserves (by decide) (by decide) w rfl
  obtain ⟨w₂, hw₂, -⟩ := hlanguages clefLoaderClaimed hserves w rfl
  exact ⟨hdecode 0x0407 [0x42] (by decide), ⟨w₁, hw₁⟩, hunits [0x0407, 0xd834] [0x42] (by decide),
    w₂, hw₂⟩

end UsbDfu
