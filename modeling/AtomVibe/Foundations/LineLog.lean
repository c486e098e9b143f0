import AtomVibe.Foundations.Checked
import AtomVibe.Text

/-!
Logs that hold one record in each line: what reading one finds after a line has been put at its
end. The last line of a log may be open, without the newline that ends it.
-/

namespace AtomVibe.LineLog

open Checked Text

inductive LogError
  | invalidUtf8
  | invalidLine (number : ℕ)
  deriving DecidableEq

variable {α : Type}

def readLines (decode : String → Option α) : ℕ → List (List Char) → Except LogError (List α)
  | _, [] => .ok []
  | number, line :: lines =>
    if line.all isWhitespace then readLines decode (number + 1) lines
    else match decode (String.ofList line) with
      | none => .error (.invalidLine number)
      | some record => (readLines decode (number + 1) lines).map (record :: ·)

def readToString : Option ByteArray → Except LogError String
  | none => .ok ""
  | some bytes => okOr .invalidUtf8 (String.fromUTF8? bytes)

def read (decode : String → Option α) (file : Option ByteArray) : Except LogError (List α) := do
  let text ← readToString file
  readLines decode 1 (lines text)

def append (line : String) (file : Option ByteArray) : ByteArray :=
  file.getD ByteArray.empty ++ (line ++ "\n").toByteArray

def openLine (cs : List Char) : List Char := (cs.reverse.takeWhile (· != '\n')).reverse

structure Solid (line : List Char) : Prop where
  one : '\n' ∉ line
  ends : ∃ front c, line = front ++ [c] ∧ isWhitespace c = false

section Lines

variable {cs head line : List Char}

theorem newline_not_mem_openLine (cs : List Char) : '\n' ∉ openLine cs := by
  intro h
  rw [openLine, List.mem_reverse] at h
  simpa using List.mem_takeWhile_imp h

theorem exists_openLine (cs : List Char) :
    ∃ head, cs = head ++ openLine cs ∧ (head = [] ∨ ∃ front, head = front ++ ['\n']) := by
  refine ⟨(cs.reverse.dropWhile (· != '\n')).reverse, ?_, ?_⟩
  · rw [openLine, ← List.reverse_append, List.takeWhile_append_dropWhile, List.reverse_reverse]
  · cases hdrop : cs.reverse.dropWhile (· != '\n') with
    | nil => exact .inl rfl
    | cons c rest =>
      have hc : c = '\n' := by
        have hhead := List.head?_dropWhile_not (· != '\n') cs.reverse
        rw [hdrop] at hhead
        simpa using hhead
      exact .inr ⟨rest.reverse, by rw [List.reverse_cons, hc]⟩

theorem linesFrom_closed (h : head = [] ∨ ∃ front, head = front ++ ['\n']) (rest : List Char) :
    linesFrom [] (head ++ rest) = linesFrom [] head ++ linesFrom [] rest := by
  rcases h with rfl | ⟨front, rfl⟩
  · rfl
  · rw [List.append_assoc, List.singleton_append, linesFrom_break]

theorem linesFrom_open (h : '\n' ∉ cs) : linesFrom [] cs = if cs = [] then [] else [cs] := by
  have hlines := @linesFrom_append [] cs h []
  rw [List.append_nil, List.append_nil] at hlines
  rw [hlines, linesFrom]
  by_cases hcs : cs = []
  · simp [hcs]
  · simp [hcs]

theorem linesFrom_ended (h : '\n' ∉ cs) (hend : ∃ front c, cs = front ++ [c] ∧ c ≠ '\r') :
    linesFrom [] (cs ++ ['\n']) = [cs] := by
  obtain ⟨front, c, rfl, hc⟩ := hend
  rw [linesFrom_append h, List.append_nil, List.reverse_append, List.reverse_singleton,
    List.singleton_append, linesFrom.eq_3]
  · simp [linesFrom]
  · intro kept heq
    exact hc (List.cons.inj heq).1

theorem lines_append (text : String) (h : Solid line) :
    ∃ above, lines text = above ++ (if openLine text.toList = [] then []
        else [openLine text.toList]) ∧
      lines (text ++ (String.ofList line ++ "\n")) = above ++ [openLine text.toList ++ line] := by
  obtain ⟨head, hhead, hclosed⟩ := exists_openLine text.toList
  have hopen := newline_not_mem_openLine text.toList
  obtain ⟨front, c, hline, hc⟩ := h.ends
  refine ⟨linesFrom [] head, ?_, ?_⟩
  · rw [lines]
    conv_lhs => rw [hhead]
    rw [linesFrom_closed hclosed, linesFrom_open hopen]
  · have hnew : (text ++ (String.ofList line ++ "\n")).toList =
        head ++ ((openLine text.toList ++ line) ++ ['\n']) := by
      rw [String.toList_append, String.toList_append, String.toList_ofList]
      conv_lhs => rw [hhead]
      simp
    rw [lines, hnew, linesFrom_closed hclosed, linesFrom_ended]
    · simpa using ⟨hopen, h.one⟩
    · refine ⟨openLine text.toList ++ front, c, by rw [hline, List.append_assoc], ?_⟩
      rintro rfl
      exact absurd hc (by decide)

end Lines

section Reading

variable {decode : String → Option α} {text : String} {line : List Char} {old : List α}
  {record : α}

theorem readLines_append (number : ℕ) (above below : List (List Char)) :
    readLines decode number (above ++ below) = (do
      let front ← readLines decode number above
      let rest ← readLines decode (number + above.length) below
      .ok (front ++ rest)) := by
  induction above generalizing number with
  | nil =>
    simp only [List.nil_append, readLines, ok_bind, List.length_nil, Nat.add_zero]
    cases readLines decode number below <;> rfl
  | cons line above ih =>
    have hnumber : number + 1 + above.length = number + (line :: above).length := by
      simp only [List.length_cons]
      omega
    rw [List.cons_append, readLines, readLines, ih, hnumber]
    by_cases hblank : line.all isWhitespace = true
    · rw [if_pos hblank, if_pos hblank]
    · rw [if_neg hblank, if_neg hblank]
      cases decode (String.ofList line) with
      | none => rfl
      | some record =>
        cases readLines decode (number + 1) above with
        | error error => rfl
        | ok front =>
          cases readLines decode (number + (line :: above).length) below <;> rfl

theorem readLines_one (number : ℕ) (h : line.all isWhitespace = false) :
    readLines decode number [line] = match decode (String.ofList line) with
      | none => .error (.invalidLine number)
      | some record => .ok [record] := by
  rw [readLines, h]
  cases decode (String.ofList line) <;> rfl

theorem Solid.not_blank (h : Solid line) (before : List Char) :
    (before ++ line).all isWhitespace = false := by
  obtain ⟨front, c, rfl, hc⟩ := h.ends
  simp [hc]

theorem readLines_lines_append (hline : Solid line)
    (hold : readLines decode 1 (lines text) = .ok old) :
    readLines decode 1 (lines (text ++ (String.ofList line ++ "\n"))) = .ok (old ++ [record]) ↔
      (openLine text.toList).all isWhitespace = true ∧
        decode (String.ofList (openLine text.toList ++ line)) = some record := by
  obtain ⟨above, hbefore, hafter⟩ := lines_append text hline
  rw [hbefore, readLines_append] at hold
  obtain ⟨front, hfront, hold⟩ := bind_eq_ok.mp hold
  obtain ⟨rest, hrest, hold⟩ := bind_eq_ok.mp hold
  obtain rfl := Except.ok.inj hold
  rw [hafter, readLines_append, hfront, ok_bind,
    readLines_one _ (hline.not_blank _)]
  by_cases hblank : (openLine text.toList).all isWhitespace = true
  · obtain rfl : rest = [] := by
      by_cases hnil : openLine text.toList = []
      · rw [if_pos hnil] at hrest
        exact (Except.ok.inj hrest).symm
      · rw [if_neg hnil, readLines, if_pos hblank] at hrest
        exact (Except.ok.inj hrest).symm
    cases hdecode : decode (String.ofList (openLine text.toList ++ line)) with
    | none => simp [bind, Except.bind]
    | some record' => simp [hblank]
  · -- the record that stood in the open line is gone
    have hnil : openLine text.toList ≠ [] := by
      rintro hnil
      exact hblank (by simp [hnil])
    obtain ⟨record', rfl⟩ : ∃ record', rest = [record'] := by
      rw [if_neg hnil, readLines_one _ (by simpa using hblank)] at hrest
      cases hdecode : decode (String.ofList (openLine text.toList)) with
      | none => simp [hdecode] at hrest
      | some record' =>
        rw [hdecode] at hrest
        exact ⟨record', (Except.ok.inj hrest).symm⟩
    cases hdecode : decode (String.ofList (openLine text.toList ++ line)) with
    | none => simp [bind, Except.bind, hblank]
    | some record'' =>
      constructor
      · intro heq
        have hlength := congrArg List.length (Except.ok.inj heq)
        simp at hlength
      · rintro ⟨hopen, -⟩
        exact absurd hopen hblank

theorem readToString_append {file : Option ByteArray} (line : String)
    (h : readToString file = .ok text) :
    readToString (some (append line file)) = .ok (text ++ (line ++ "\n")) := by
  have hbytes : file.getD ByteArray.empty = text.toByteArray := by
    cases file with
    | none =>
      obtain rfl := Except.ok.inj h
      rfl
    | some bytes =>
      have htext := okOr_eq_ok.mp h
      rw [String.fromUTF8?] at htext
      split_ifs at htext with hvalid
      obtain rfl := Option.some.inj htext
      rfl
  rw [append, hbytes, ← String.toByteArray_append, readToString, fromUTF8?_toByteArray]
  rfl

end Reading

section Logs

variable {decode : String → Option α} {file : Option ByteArray} {text : String} {line : List Char}
  {old : List α} {record : α}

theorem read_append_iff (hline : Solid line) (htext : readToString file = .ok text)
    (hold : read decode file = .ok old) :
    read decode (some (append (String.ofList line) file)) = .ok (old ++ [record]) ↔
      (openLine text.toList).all isWhitespace = true ∧
        decode (String.ofList (openLine text.toList ++ line)) = some record := by
  rw [read, htext, ok_bind] at hold
  rw [read, readToString_append _ htext, ok_bind]
  exact readLines_lines_append hline hold

theorem openLine_append (text line : String) : openLine (text ++ (line ++ "\n")).toList = [] := by
  simp [openLine]

theorem read_single (hline : Solid line) :
    read decode (some (append (String.ofList line) none)) =
      match decode (String.ofList line) with
      | none => .error (.invalidLine 1)
      | some record => .ok [record] := by
  obtain ⟨above, hbefore, hafter⟩ := lines_append "" hline
  obtain rfl : above = [] := (List.append_eq_nil_iff.mp hbefore.symm).1
  have htext : readToString none = .ok "" := rfl
  rw [read, readToString_append _ htext, ok_bind, hafter]
  exact readLines_one 1 (hline.not_blank [])

structure Holds (decode : String → Option α) (file : Option ByteArray) (records : List α) :
    Prop where
  reads : read decode file = .ok records
  ended : ∃ text, readToString file = .ok text ∧ openLine text.toList = []

theorem holds_none : Holds decode none [] := ⟨rfl, "", rfl, rfl⟩

theorem Holds.append (h : Holds decode file old) (hline : Solid line)
    (hdecode : decode (String.ofList line) = some record) :
    Holds decode (some (append (String.ofList line) file)) (old ++ [record]) := by
  obtain ⟨text, htext, hopen⟩ := h.ended
  refine ⟨(read_append_iff hline htext h.reads).mpr ?_, _, readToString_append _ htext,
    openLine_append text _⟩
  rw [hopen]
  exact ⟨rfl, hdecode⟩

end Logs

end AtomVibe.LineLog
