import CallAtlas.Command

/-!
Printing line by line. Whether a line is refused is decided by the lines before it; remarks have no
part in it.
-/

set_option autoImplicit false

namespace CallAtlas

/-- Lines as they are put out. -/
def texts (lines : List String) : List String :=
  lines.map (· ++ "\n")

def linesOf : List Event → List String
  | [] => []
  | .line text :: rest => text :: linesOf rest
  | .remark _ :: rest => linesOf rest

@[simp] theorem linesOf_append (first last : List Event) :
    linesOf (first ++ last) = linesOf first ++ linesOf last := by
  fun_induction linesOf first with
  | case1 => rfl
  | case2 text rest ih => simp [linesOf, ih]
  | case3 text rest ih => simp [linesOf, ih]

@[simp] theorem linesOf_map_line (lines : List String) : linesOf (lines.map .line) = lines := by
  induction lines with
  | nil => rfl
  | cons line rest ih => simp [linesOf, ih]

@[simp] theorem linesOf_map_remark {α : Type} (f : α → String) (items : List α) :
    linesOf (items.map (fun x => .remark (f x))) = [] := by
  induction items with
  | nil => rfl
  | cons x rest ih => simpa [linesOf] using ih

@[simp] theorem linesOf_filter_isRemark (events : List Event) :
    linesOf (events.filter Event.isRemark) = [] := by
  fun_induction linesOf events with
  | case1 => rfl
  | case2 text rest ih => exact ih
  | case3 text rest ih => exact ih

/-- What stands against the first line that is refused, after the texts that are out. -/
def Stream.fault? (stream : Stream) (out : List String) : List String → Option Fault
  | [] => none
  | line :: rest => (stream out (line ++ "\n")).or (stream.fault? (out ++ texts [line]) rest)

namespace Console

variable {console : Console} {t : Transcript} {events : List Event}

theorem play_snd (console : Console) (t : Transcript) (events : List Event) :
    (console.play t events).2 = console.stdout.fault? t.stdout (linesOf events) := by
  fun_induction Console.play console t events with
  | case1 t => rfl
  | case2 t text rest fault hfault => simp [linesOf, Stream.fault?, hfault]
  | case3 t text rest hnone ih => simpa [linesOf, Stream.fault?, hnone, texts] using ih
  | case4 t text rest fault hfault ih => exact ih
  | case5 t text rest hnone ih => exact ih

theorem play_stdout (h : (console.play t events).2 = none) :
    (console.play t events).1.stdout = t.stdout ++ texts (linesOf events) := by
  fun_induction Console.play console t events with
  | case1 t => simp [linesOf, texts]
  | case2 t text rest fault hfault => simp at h
  | case3 t text rest hnone ih => simpa [linesOf, texts] using ih h
  | case4 t text rest fault hfault ih => exact ih h
  | case5 t text rest hnone ih => exact ih h

end Console

end CallAtlas
