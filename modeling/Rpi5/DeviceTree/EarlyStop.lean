import Rpi5.DeviceTree.Steps
import Rpi5.DeviceTree.Assembly

/-!
# Stopping early

A callback which breaks hears the beginning of what a continuing callback hears
(`run_prefix`). The walk then returns at once with its cursor in front of a node,
where `find_node` looks for `FDT_END`: every broken search ends in an error
(`broken_search_fails`).
-/

namespace Rpi5.DeviceTree

open Rpi5.Logical Rpi5.Semantics

namespace Image

variable (image : Image) (deviceName compatibleName : Option String) (callback : Callback)
  (fuel : Nat)

/-- The calls of any search are those heard of its emission. -/
theorem run_calls :
    (image.run deviceName compatibleName callback fuel).2 =
      heard callback.stops [] (image.emission deviceName compatibleName fuel).output := by
  rw [run_eq]
  split
  · rfl
  case isFalse quiet =>
    exact (heard_of_uninterrupted (by simpa using quiet)).symm

/-- An answered `Break` among the calls is an interruption of the emission. -/
theorem interrupted_of_break {before after : List Window} {window : Window}
    (calls : (image.run deviceName compatibleName callback fuel).2 = before ++ window :: after)
    (broke : callback before window = .Break) :
    interrupted callback.stops [] (image.emission deviceName compatibleName fuel).output = true := by
  by_contra quiet
  have whole := heard_of_uninterrupted (by simpa using quiet :
    interrupted callback.stops [] (image.emission deviceName compatibleName fuel).output = false)
  rw [run_calls, whole] at calls
  rw [calls, interrupted_append] at quiet
  simp [interrupted, broke] at quiet

/-- The calls of a search are an initial part of those of the search which is never
broken; they end with the first `Break`, and without one the two searches agree. -/
theorem run_prefix :
    (image.run deviceName compatibleName callback fuel).2 <+:
        (image.run deviceName compatibleName .always fuel).2 ∧
      (∀ before window after,
        (image.run deviceName compatibleName callback fuel).2 = before ++ window :: after →
          callback before window = .Break → after = []) ∧
      ((∀ before window after,
        (image.run deviceName compatibleName callback fuel).2 = before ++ window :: after →
          callback before window = .Continue) →
        image.run deviceName compatibleName callback fuel =
          image.run deviceName compatibleName .always fuel) := by
  refine ⟨?_, ?_, ?_⟩
  · rw [run_calls, run_always]
    exact heard_isPrefix _ _
  · intro before window after calls broke
    rw [run_calls] at calls
    exact heard_stops_last calls (by simpa using broke)
  · intro continues
    have quiet : ¬ interrupted callback.stops []
        (image.emission deviceName compatibleName fuel).output = true := by
      intro broken
      obtain ⟨before, window, calls, stopped⟩ := heard_of_interrupted broken
      have continued := continues before window [] (by rw [run_calls, calls])
      have broke : callback before window = .Break := by simpa using stopped
      rw [continued] at broke
      cases broke
    rw [run_always, run_eq, if_neg quiet]

variable {image deviceName compatibleName callback fuel}

/-- A search whose callback breaks returns the error of an incomplete parse, and
never `Ok`. -/
theorem broken_search_fails {before after : List Window} {window : Window}
    (calls : (image.run deviceName compatibleName callback fuel).2 = before ++ window :: after)
    (broke : callback before window = .Break) :
    image.Returns deviceName compatibleName callback (.error parseIncomplete)
        (before ++ window :: after) ∧
      ∀ made, ¬ image.Returns deviceName compatibleName callback (.ok ()) made := by
  have broken := image.interrupted_of_break deviceName compatibleName callback fuel calls broke
  have run : image.run deviceName compatibleName callback fuel =
      (.error parseIncomplete, before ++ window :: after) := by
    apply Prod.ext
    · rw [run_eq, if_pos broken]
    · exact calls
  have returns : image.Returns deviceName compatibleName callback (.error parseIncomplete)
      (before ++ window :: after) := ⟨by decide, fuel, run⟩
  refine ⟨returns, fun made fine => ?_⟩
  obtain ⟨different, -⟩ := returns.unique fine
  cases different

end Image

section OneUart

/-- On this well-formed blob a callback breaks on its first call, and the search fails. -/
theorem uartImage_break :
    Serialises uartImage.blob.whole uartImage.parser uartBoard ∧
      uartBoard.tree.Accepted none (some "pl011") ∧
      uartImage.Returns none (some "pl011") .always (.ok ()) [(0x1000, 0x200)] ∧
      uartImage.Returns none (some "pl011") (fun _ _ => .Break) (.error parseIncomplete)
        [(0x1000, 0x200)] := by
  refine ⟨uartImage_serialises, by decide +kernel, ⟨by decide, 20, ?_⟩, ⟨by decide, 20, ?_⟩⟩
  · decide +kernel
  · decide +kernel

/-- A callback which breaks at the first window of the board gets the error. -/
theorem uartImage_broken :
    uartImage.Returns none (some "pl011") (fun _ _ => .Break) (.error parseIncomplete)
        ([] ++ (0x1000, 0x200) :: []) ∧
      ∀ made, ¬ uartImage.Returns none (some "pl011") (fun _ _ => .Break) (.ok ()) made := by
  have calls : (uartImage.run none (some "pl011") (fun _ _ => .Break) 20).2 =
      [] ++ (0x1000, 0x200) :: [] := by decide +kernel
  exact Image.broken_search_fails calls rfl

end OneUart
end Rpi5.DeviceTree
