import AnnotationCheck.Text.Basic

/-!
Runs of a class of characters.

* `Stops` — a text does not go on with a character of a class.
* **`takeWhile_run`**, **`dropWhile_run`** — a run is read to its end, where what follows stops it.
-/

namespace AnnotationCheck.Text

variable {inClass : Char → Bool} {run rest : Text}

/-- What follows does not begin with a character of a class. -/
def Stops (inClass : Char → Bool) (rest : Text) : Prop := rest.head?.any inClass = false

theorem stops_dropWhile (text : Text) : Stops inClass (text.dropWhile inClass) := by
  unfold Stops
  induction text with
  | nil => rfl
  | cons c rest ih =>
    rw [List.dropWhile_cons]
    split
    · exact ih
    · rename_i outside
      simpa using outside

theorem Stops.dropWhile_eq (stops : Stops inClass rest) : rest.dropWhile inClass = rest := by
  cases rest with
  | nil => rfl
  | cons c rest =>
    have outside : inClass c = false := by simpa [Stops] using stops
    simp [outside]

theorem Stops.takeWhile_eq (stops : Stops inClass rest) : rest.takeWhile inClass = [] := by
  cases rest with
  | nil => rfl
  | cons c rest =>
    have outside : inClass c = false := by simpa [Stops] using stops
    simp [outside]

theorem Stops.append {more : Text} (stops : Stops inClass rest)
    (stopsAtEnd : rest = [] → Stops inClass more) : Stops inClass (rest ++ more) := by
  cases rest with
  | nil => exact stopsAtEnd rfl
  | cons c rest => exact stops

theorem dropWhile_run (all : ∀ c ∈ run, inClass c = true) (stops : Stops inClass rest) :
    (run ++ rest).dropWhile inClass = rest := by
  rw [List.dropWhile_append_of_pos all, stops.dropWhile_eq]

theorem takeWhile_run (all : ∀ c ∈ run, inClass c = true) (stops : Stops inClass rest) :
    (run ++ rest).takeWhile inClass = run := by
  rw [List.takeWhile_append_of_pos all, stops.takeWhile_eq, List.append_nil]

theorem all_of_mem_takeWhile (text : Text) : ∀ c ∈ text.takeWhile inClass, inClass c = true :=
  fun _ there => List.all_eq_true.mp List.all_takeWhile _ there

end AnnotationCheck.Text
