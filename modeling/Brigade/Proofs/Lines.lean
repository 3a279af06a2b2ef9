import Brigade.Proofs.Quotation
import Brigade.Toml.Reader
import Mathlib.Data.List.TakeWhile

/-! Lines of a TOML document: what the reader makes of a number, a truth value or a string, of a pair and
of the header of a table, whatever the lines after it are. A text that is put together from such lines is
read as their statements. -/

namespace Brigade.Toml

/-! ### Numbers -/

theorem digitsValue_toDigits (n : Nat) : Text.digitsValue (Nat.toDigits 10 n) = n :=
  Nat.ofDigitChars_toDigits (by decide) (by decide)

theorem isDigit_of_mem_toDigits {n : Nat} : ∀ c ∈ Nat.toDigits 10 n, c.isDigit = true :=
  fun _ => Nat.isDigit_of_mem_toDigits (by decide) (by decide)

theorem head?_toDigits {n : Nat} (h : 0 < n) : (Nat.toDigits 10 n).head? ≠ some '0' := by
  induction n using Nat.strongRecOn with
  | ind n ih =>
    rw [Nat.toDigits_eq_if (by decide)]
    split
    · next hlt => simp [Nat.ne_of_gt h]
    · next hge =>
      have hdiv : 0 < n / 10 := Nat.div_pos (Nat.not_lt.1 hge) (by decide)
      have hhead := ih (n / 10) (Nat.div_lt_self h (by decide)) hdiv
      rw [List.head?_append]
      cases hdigits : (Nat.toDigits 10 (n / 10)).head? with
      | none => exact absurd (List.head?_eq_none_iff.1 hdigits) Nat.toDigits_ne_nil
      | some c =>
        rw [hdigits] at hhead
        exact hhead

theorem ungroup?_digits {cs : List Char} (hcs : cs ≠ []) (h : ∀ c ∈ cs, c.isDigit = true) :
    ungroup? Char.isDigit cs = some cs := by
  induction cs with
  | nil => exact absurd rfl hcs
  | cons c rest ih =>
    have hc : c.isDigit = true := h c (.head rest)
    cases rest with
    | nil => simp [ungroup?, hc]
    | cons d rest =>
      have hunder : d ≠ '_' := Text.ne_of_kind (h d (.tail c (.head rest))) (by decide)
      have hrest := ih (List.cons_ne_nil d rest) fun e he => h e (.tail c he)
      rw [ungroup?, if_pos hc, hrest]
      · rfl
      · exact List.cons_ne_nil d rest
      · exact fun _ heq => hunder (List.cons.inj heq).1

theorem wholeDigits?_toDigits (n : Nat) :
    wholeDigits? (Nat.toDigits 10 n) = some (Nat.toDigits 10 n) := by
  have hungroup := ungroup?_digits Nat.toDigits_ne_nil (isDigit_of_mem_toDigits (n := n))
  have hzero : ¬(1 < (Nat.toDigits 10 n).length ∧ (Nat.toDigits 10 n).head? = some '0') := by
    rintro ⟨hlong, hhead⟩
    cases n with
    | zero => exact absurd hlong (by decide)
    | succ n => exact head?_toDigits n.succ_pos hhead
  simp [wholeDigits?, hungroup, hzero]

theorem splitSign_digits {cs : List Char} (h : ∀ c ∈ cs, c.isDigit = true) :
    splitSign cs = (false, cs) := by
  cases cs with
  | nil => rfl
  | cons c rest =>
    have hc : c.isDigit = true := h c (.head rest)
    unfold splitSign
    split
    · next heq => exact absurd (List.cons.inj heq).1 (Text.ne_of_kind hc (by decide))
    · next heq => exact absurd (List.cons.inj heq).1 (Text.ne_of_kind hc (by decide))
    · rfl

theorem integer?_toDigits {n : Nat} (h : n < 2 ^ 63) : integer? (Nat.toDigits 10 n) = some (n : Int) := by
  have hrange : inRange? (n : Int) = some (n : Int) := by
    have hmin : Int64.minValue.toInt = -2 ^ 63 := rfl
    have hmax : Int64.maxValue.toInt = 2 ^ 63 - 1 := rfl
    rw [inRange?, if_pos]
    omega
  have hdigits := isDigit_of_mem_toDigits (n := n)
  have hwhole := wholeDigits?_toDigits n
  have hvalue := digitsValue_toDigits n
  generalize Nat.toDigits 10 n = cs at hdigits hwhole hvalue
  have hletter (c : Char) (hc : c.isDigit = false) (rest : List Char) : cs ≠ '0' :: c :: rest := by
    rintro rfl
    exact Text.ne_of_kind (hdigits c (.tail _ (.head rest))) hc rfl
  unfold integer?
  split
  · exact absurd rfl (hletter 'x' (by decide) _)
  · exact absurd rfl (hletter 'o' (by decide) _)
  · exact absurd rfl (hletter 'b' (by decide) _)
  · simp [splitSign_digits hdigits, hwhole, hvalue, hrange]

/-! ### Words and values -/

theorem rest_of_digits? {count n : Nat} {cs rest : List Char} (h : digits? count cs = some (n, rest)) :
    rest = cs.drop count := by
  simp only [digits?] at h
  split at h
  · simp only [Option.bind_eq_bind, Option.bind_eq_some_iff] at h
    obtain ⟨m, -, hrest⟩ := h
    exact (Prod.mk.inj (Option.some.inj hrest)).2.symm
  · cases h

theorem rest_of_pair? {low high n : Nat} {cs rest : List Char} (h : pair? low high cs = some (n, rest)) :
    rest = cs.drop 2 := by
  simp only [pair?, Option.bind_eq_bind, Option.bind_eq_some_iff] at h
  obtain ⟨⟨m, more⟩, hdigits, h⟩ := h
  split at h
  · obtain ⟨rfl, rfl⟩ := Prod.mk.inj (Option.some.inj h)
    exact rest_of_digits? hdigits
  · cases h

section digits

variable {cs : List Char} (h : ∀ c ∈ cs, c.isDigit = true)
include h

theorem after?_drop_digits (mark : Char) (hmark : mark.isDigit = false) (count : Nat) :
    after? mark (cs.drop count) = none := by
  cases hdrop : cs.drop count with
  | nil => rfl
  | cons c rest =>
    have hc : c ∈ cs := List.mem_of_mem_drop (hdrop ▸ List.mem_cons_self)
    rw [after?, if_neg (Text.ne_of_kind (h c hc) hmark)]

theorem date?_digits : date? cs = none := by
  cases hyear : digits? 4 cs with
  | none => simp [date?, hyear]
  | some year =>
    have hdash := after?_drop_digits h '-' (by decide) 4
    rw [← rest_of_digits? hyear] at hdash
    simp [date?, hyear, hdash]

theorem time?_digits : time? cs = none := by
  cases hhour : pair? 0 23 cs with
  | none => simp [time?, hhour]
  | some hour =>
    have hcolon := after?_drop_digits h ':' (by decide) 2
    rw [← rest_of_pair? hhour] at hcolon
    simp [time?, hhour, hcolon]

theorem isMoment_digits : isMoment cs = false := by
  simp [isMoment, date?_digits h, time?_digits h]

theorem isFloat_digits : isFloat cs = false := by
  have hname : (cs = ['i', 'n', 'f'] || cs = ['n', 'a', 'n']) = false := by
    rw [Bool.or_eq_false_iff, decide_eq_false_iff_not, decide_eq_false_iff_not]
    constructor
    · rintro rfl
      exact absurd (h 'i' (.head _)) (by decide)
    · rintro rfl
      exact absurd (h 'n' (.head _)) (by decide)
  have hmark : ∀ c ∈ cs, (!isMark c) = true := by
    intro c hc
    have hlower := Text.ne_of_kind (h c hc) (by decide : 'e'.isDigit = false)
    have hupper := Text.ne_of_kind (h c hc) (by decide : 'E'.isDigit = false)
    simp [isMark, hlower, hupper]
  have hpoint : ∀ c ∈ cs, decide (c ≠ '.') = true := by
    intro c hc
    exact decide_eq_true (Text.ne_of_kind (h c hc) (by decide))
  -- there is neither a fraction nor an exponent
  have hmantissa : cs.takeWhile (fun c => !isMark c) = cs := List.takeWhile_eq_self_iff.2 hmark
  have hexponent : cs.dropWhile (fun c => !isMark c) = [] := List.dropWhile_eq_nil_iff.2 hmark
  have hfraction : cs.dropWhile (fun c => decide (c ≠ '.')) = [] := List.dropWhile_eq_nil_iff.2 hpoint
  simp only [isFloat, splitSign_digits h, hname, hmantissa, hexponent, hfraction, List.isEmpty_nil,
    Bool.false_eq_true, if_false]
  split
  · rfl
  · rfl

end digits

theorem word?_toDigits {n : Nat} (h : n < 2 ^ 63) : word? (Nat.toDigits 10 n) = some (.int n) := by
  have hdigits := isDigit_of_mem_toDigits (n := n)
  have hname (c : Char) (cs : List Char) (hc : c.isDigit = false) : Nat.toDigits 10 n ≠ c :: cs := by
    intro heq
    exact Text.ne_of_kind (hdigits c (heq ▸ .head cs)) hc rfl
  have htrue : Nat.toDigits 10 n ≠ "true".toList := hname 't' _ (by decide)
  have hfalse : Nat.toDigits 10 n ≠ "false".toList := hname 'f' _ (by decide)
  rw [word?, if_neg htrue, if_neg hfalse, isMoment_digits hdigits, isFloat_digits hdigits,
    integer?_toDigits h]
  rfl

theorem isTokenChar_of_isDigit {c : Char} (h : c.isDigit = true) : isTokenChar c = true := by
  simp [isTokenChar, Char.isAlphanum, h]

/-- A word is read up to what cannot belong to it. -/
theorem scalarValue?_word {token rest : List Char} {v : Json}
    (htoken : ∀ c ∈ token, isTokenChar c = true) (hrest : Text.Stops isTokenChar rest)
    (hdate : date? token = none) (hword : word? token = some v) :
    scalarValue? (token ++ rest) = some (v, rest) := by
  simp [scalarValue?, hrest.takeWhile_append htoken, hrest.dropWhile_append htoken, hdate, hword]

theorem value?_scalar {c : Char} (hc : isTokenChar c = true) (fuel levels : Nat) (cs : List Char) :
    value? (fuel + 1) levels (c :: cs) = scalarValue? (c :: cs) := by
  rw [value?]
  · exact fun _ heq => Text.ne_of_kind hc (by decide) (List.cons.inj heq).1
  · exact fun _ heq => Text.ne_of_kind hc (by decide) (List.cons.inj heq).1
  · exact fun _ heq => Text.ne_of_kind hc (by decide) (List.cons.inj heq).1
  · exact fun _ heq => Text.ne_of_kind hc (by decide) (List.cons.inj heq).1

theorem escapeChar_head? (c : Char) : (escapeChar c).head? ≠ some '"' := by
  unfold escapeChar
  split_ifs with hself
  all_goals simp_all

theorem string?_basic {rest : List Char} (hrest : rest.head? ≠ some '"') (cs : List Char) :
    string? ('"' :: (cs.flatMap escapeChar ++ '"' :: rest)) = some (String.ofList cs, rest) := by
  rw [← unescapes.readsBack cs rest, string?]
  · rfl
  · intro more heq
    cases cs with
    | nil =>
      have hquote : rest = '"' :: more := (List.cons.inj heq).2
      exact hrest (congrArg List.head? hquote)
    | cons c cs =>
      obtain ⟨d, ds, hescape⟩ := List.exists_cons_of_ne_nil (unescapes.nonempty c)
      have hd : d ≠ '"' := by simpa [hescape] using escapeChar_head? c
      rw [List.flatMap_cons, hescape] at heq
      exact hd (List.cons.inj heq).1

/-- A text that is read as a value at the end of a line. -/
structure ValueText (text : List Char) (v : Json) : Prop where
  stops : Text.Stops isSpace text
  read (fuel levels : Nat) (rest : List Char) :
    value? (fuel + 1) levels (text ++ '\n' :: rest) = some (v, '\n' :: rest)

namespace ValueText

theorem word {c : Char} {cs : List Char} {v : Json} (hword : ∀ d ∈ c :: cs, isTokenChar d = true)
    (hdate : date? (c :: cs) = none) (hvalue : word? (c :: cs) = some v) : ValueText (c :: cs) v where
  stops := by
    have hspace := Text.ne_of_kind (hword c (.head cs)) (by decide : isTokenChar ' ' = false)
    have htab := Text.ne_of_kind (hword c (.head cs)) (by decide : isTokenChar '\t' = false)
    exact .cons (by simp [isSpace, hspace, htab]) cs
  read fuel levels rest := by
    rw [List.cons_append, value?_scalar (hword c (.head cs)), ← List.cons_append,
      scalarValue?_word hword (.cons (by decide) rest) hdate hvalue]

theorem number {n : Nat} (h : n < 2 ^ 63) : ValueText (Nat.toDigits 10 n) (.int n) := by
  have hdigits := isDigit_of_mem_toDigits (n := n)
  have hvalue := word?_toDigits h
  cases htext : Nat.toDigits 10 n with
  | nil => exact absurd htext Nat.toDigits_ne_nil
  | cons c cs =>
    rw [htext] at hdigits hvalue
    exact word (fun d hd => isTokenChar_of_isDigit (hdigits d hd)) (date?_digits hdigits) hvalue

theorem bool (b : Bool) : ValueText (toString b).toList (.bool b) := by
  cases b with
  | false => exact word (List.all_eq_true.1 rfl) (by decide) rfl
  | true => exact word (List.all_eq_true.1 rfl) (by decide) rfl

theorem string (s : String) : ValueText ('"' :: (s.toList.flatMap escapeChar ++ ['"'])) (.str s) where
  stops := .cons (by decide) _
  read fuel levels rest := by
    have hstring := string?_basic (by simp : ('\n' :: rest).head? ≠ some '"') s.toList
    rw [String.ofList_toList] at hstring
    rw [List.cons_append, List.append_assoc, List.singleton_append, value?, hstring]
    rfl

end ValueText

/-! ### Keys -/

theorem skipSpaces_of_stops {cs : List Char} (h : Text.Stops isSpace cs) : skipSpaces cs = cs := by
  have hnone : ∀ c ∈ ([] : List Char), isSpace c = true := nofun
  exact h.dropWhile_append hnone

def isContent (c : Char) : Bool := !isSpace c && c ≠ '#' && c ≠ '\n' && c ≠ '\r'

def startsKey (c : Char) : Bool := isBareChar c || c = '"' || c = '\''

theorem isContent_of_startsKey {c : Char} (h : startsKey c = true) : isContent c = true := by
  have hspace := Text.ne_of_kind h (by decide : startsKey ' ' = false)
  have htab := Text.ne_of_kind h (by decide : startsKey '\t' = false)
  have hhash := Text.ne_of_kind h (by decide : startsKey '#' = false)
  have hfeed := Text.ne_of_kind h (by decide : startsKey '\n' = false)
  have hreturn := Text.ne_of_kind h (by decide : startsKey '\r' = false)
  simp [isContent, isSpace, hspace, htab, hhash, hfeed, hreturn]

theorem skipSpaces_of_isContent {c : Char} (h : isContent c = true) (cs : List Char) :
    skipSpaces (c :: cs) = c :: cs := by
  have hspace : isSpace c = false := by
    simp only [isContent, Bool.and_eq_true, Bool.not_eq_true'] at h
    exact h.1.1.1
  exact skipSpaces_of_stops (.cons hspace cs)

theorem exists_keyText (key : String) :
    ∃ c cs, (keyText key).toList = c :: cs ∧ startsKey c = true := by
  simp only [keyText]
  split_ifs with hbare hliteral
  · simp only [Bool.and_eq_true, Bool.not_eq_true', List.isEmpty_eq_false_iff, List.all_eq_true] at hbare
    obtain ⟨c, cs, hkey⟩ := List.exists_cons_of_ne_nil hbare.1
    have hc : isBareChar c = true := hbare.2 c (hkey ▸ .head cs)
    exact ⟨c, cs, hkey, by simp [startsKey, hc]⟩
  · exact ⟨'\'', key.toList ++ ['\''], by simp, rfl⟩
  · exact ⟨'"', key.toList.flatMap escapeChar ++ ['"'], by simp, rfl⟩

theorem skipSpaces_keyText (key : String) (rest : List Char) :
    skipSpaces ((keyText key).toList ++ rest) = (keyText key).toList ++ rest := by
  obtain ⟨c, cs, hkey, hc⟩ := exists_keyText key
  rw [hkey]
  exact skipSpaces_of_isContent (isContent_of_startsKey hc) (cs ++ rest)

def pathText (part : String) (path : List String) : List Char :=
  (keyText part).toList ++ path.flatMap fun next => '.' :: (keyText next).toList

theorem pathText_nil (part : String) : pathText part [] = (keyText part).toList :=
  List.append_nil (keyText part).toList

theorem pathText_cons (part next : String) (path : List String) :
    pathText part (next :: path) = (keyText part).toList ++ '.' :: pathText next path := by
  rw [pathText, pathText, List.flatMap_cons, List.cons_append]

theorem exists_pathText (part : String) (path : List String) :
    ∃ c cs, pathText part path = c :: cs ∧ startsKey c = true := by
  obtain ⟨c, cs, hpart, hc⟩ := exists_keyText part
  exact ⟨c, _, by rw [pathText, hpart, List.cons_append], hc⟩

/-- A path is read back up to what cannot go on with it. -/
theorem parts?_pathText (part : String) {path : List String} {count : Nat} (hcount : path.length < count)
    {rest : List Char} (hrest : Text.Stops isBareChar rest)
    (hdot : (skipSpaces rest).head? ≠ some '.') :
    parts? count (pathText part path ++ rest) = some (part :: path, skipSpaces rest) := by
  induction path generalizing part count with
  | nil =>
    obtain ⟨count, rfl⟩ : ∃ k, count = k + 1 := Nat.exists_eq_add_one.2 hcount
    have hpart := part?_keyText part hrest
    simp only [pathText_nil, parts?, skipSpaces_keyText, hpart, Option.bind_eq_bind, Option.bind_some]
    split
    · next heq => exact absurd (heq ▸ rfl) hdot
    · rfl
  | cons next path ih =>
    obtain ⟨count, rfl⟩ : ∃ k, count = k + 1 := Nat.exists_eq_add_one.2 (Nat.zero_lt_of_lt hcount)
    have hpart := part?_keyText part
      (.cons (by decide) (pathText next path ++ rest) : Text.Stops isBareChar ('.' :: _))
    have hparts := ih next (Nat.lt_of_succ_lt_succ hcount)
    have hspaces (cs : List Char) : skipSpaces ('.' :: cs) = '.' :: cs := rfl
    simp only [pathText_cons, parts?, List.append_assoc, List.cons_append, skipSpaces_keyText, hpart,
      Option.bind_eq_bind, Option.bind_some, hspaces, hparts]
    rfl

theorem key?_pathText (part : String) {path : List String} (hpath : path.length < maxDepth)
    {rest : List Char} (hrest : Text.Stops isBareChar rest) (hdot : (skipSpaces rest).head? ≠ some '.') :
    key? (pathText part path ++ rest) =
      some (((part :: path).dropLast, (part :: path).getLast (List.cons_ne_nil part path)),
        skipSpaces rest) := by
  have hparts := parts?_pathText part hpath hrest hdot
  simp [key?, hparts, List.getLast?_eq_some_getLast]

/-! ### Lines -/

/-- A text that makes a line of its own, with the statement that is read from it. -/
structure Line (text : List Char) (statement : Statement) : Prop where
  start : ∃ c cs, text = c :: cs ∧ isContent c = true
  read (rest : List Char) : statement? (text ++ '\n' :: rest) = some (statement, '\n' :: rest)

namespace Line

theorem header (part : String) {path : List String} (hpath : path.length < maxDepth) :
    Line ('[' :: (pathText part path ++ [']']))
      (.table (part :: path).dropLast ((part :: path).getLast (List.cons_ne_nil part path))) where
  start := ⟨'[', _, rfl, rfl⟩
  read rest := by
    have hkey := key?_pathText part hpath
      (.cons (by decide) ('\n' :: rest) : Text.Stops isBareChar (']' :: '\n' :: rest))
      (by simp [skipSpaces, isSpace])
    have hspaces : skipSpaces (']' :: '\n' :: rest) = ']' :: '\n' :: rest := rfl
    rw [hspaces] at hkey
    obtain ⟨c, cs, htext, hc⟩ := exists_pathText part path
    rw [List.cons_append, List.append_assoc, List.singleton_append, statement?]
    · simp [hkey, after?]
    · intro more heq
      rw [htext] at heq
      exact Text.ne_of_kind hc (by decide) (List.cons.inj heq).1

theorem pair (name : String) {text : List Char} {v : Json} (h : ValueText text v) :
    Line ((keyText name).toList ++ ' ' :: '=' :: ' ' :: text) (.pair [] name v) where
  start := by
    obtain ⟨c, cs, hname, hc⟩ := exists_keyText name
    exact ⟨c, cs ++ ' ' :: '=' :: ' ' :: text, by rw [hname, List.cons_append],
      isContent_of_startsKey hc⟩
  read rest := by
    have hkey := key?_pathText name (by decide : [].length < maxDepth)
      (.cons (by decide) ('=' :: ' ' :: (text ++ '\n' :: rest)) : Text.Stops isBareChar (' ' :: _))
      (by simp [skipSpaces, isSpace])
    have hspaces : skipSpaces (' ' :: '=' :: ' ' :: (text ++ '\n' :: rest)) =
        '=' :: ' ' :: (text ++ '\n' :: rest) := rfl
    rw [hspaces] at hkey
    have hvalue : skipSpaces (' ' :: (text ++ '\n' :: rest)) = text ++ '\n' :: rest :=
      skipSpaces_of_stops (h.stops.append (.cons (by decide) rest))
    have hread := h.read (2 * ('=' :: ' ' :: (text ++ '\n' :: rest)).length + 1) maxDepth rest
    obtain ⟨c, cs, hname, hc⟩ := exists_keyText name
    have hbracket (more : List Char) :
        (keyText name).toList ++ (' ' :: '=' :: ' ' :: text ++ '\n' :: rest) ≠ '[' :: more := by
      rw [hname]
      exact fun heq => Text.ne_of_kind hc (by decide) (List.cons.inj heq).1
    rw [List.append_assoc, statement?]
    · rw [pathText_nil] at hkey
      simp only [List.cons_append, hkey, after?, if_true, Option.bind_eq_bind, Option.bind_some, hvalue,
        hread]
      rfl
    · exact fun more => hbracket _
    · exact fun more => hbracket _

theorem lineEnd?_eq_none {text : List Char} {statement : Statement} (h : Line text statement)
    (rest : List Char) : lineEnd? (text ++ rest) = none := by
  obtain ⟨c, cs, rfl, hc⟩ := h.start
  have hhash := Text.ne_of_kind hc (by decide : isContent '#' = false)
  have hfeed := Text.ne_of_kind hc (by decide : isContent '\n' = false)
  have hreturn := Text.ne_of_kind hc (by decide : isContent '\r' = false)
  have hcomment : skipComment (c :: (cs ++ rest)) = c :: (cs ++ rest) := by
    rw [skipComment]
    exact fun _ heq => hhash (List.cons.inj heq).1
  rw [List.cons_append, lineEnd?, skipSpaces_of_isContent hc, hcomment]
  show newline? (c :: (cs ++ rest)) = none
  rw [newline?]
  · exact fun _ heq => hfeed (List.cons.inj heq).1
  · exact fun _ heq => hreturn (List.cons.inj heq).1

theorem statements?_eq {text : List Char} {statement : Statement} (h : Line text statement)
    (fuel : Nat) (rest : List Char) : statements? (fuel + 1) (text ++ '\n' :: rest) =
      (statements? fuel rest).map (statement :: ·) := by
  have hend := h.lineEnd?_eq_none ('\n' :: rest)
  have hread := h.read rest
  obtain ⟨c, cs, rfl, hc⟩ := h.start
  rw [List.cons_append] at hend hread ⊢
  have hnewline : lineEnd? ('\n' :: rest) = some rest := rfl
  rw [statements?, skipSpaces_of_isContent hc]
  simp only [hend, hread, hnewline, Option.bind_eq_bind, Option.bind_some]
  cases statements? fuel rest with
  | none => rfl
  | some statements => rfl

end Line

/-- A text of lines, some of them empty, with the statements of the others. -/
inductive Lines : List Char → List Statement → Prop
  | done : Lines [] []
  | blank {cs : List Char} {statements : List Statement} (h : Lines cs statements) :
    Lines ('\n' :: cs) statements
  | line {text cs : List Char} {statement : Statement} {statements : List Statement}
    (hline : Line text statement) (h : Lines cs statements) :
    Lines (text ++ '\n' :: cs) (statement :: statements)

namespace Lines

variable {cs cs' : List Char} {statements statements' : List Statement}

theorem append (h : Lines cs statements) (h' : Lines cs' statements') :
    Lines (cs ++ cs') (statements ++ statements') := by
  induction h with
  | done => exact h'
  | blank _ ih => exact .blank ih
  | line hline _ ih =>
    rw [List.append_assoc, List.cons_append, List.cons_append]
    exact .line hline ih

/-- A line takes at least one character, so there is fuel for all of them. -/
theorem statements?_eq (h : Lines cs statements) {fuel : Nat} (hfuel : cs.length < fuel) :
    statements? fuel cs = some statements := by
  induction h generalizing fuel with
  | done =>
    obtain ⟨fuel, rfl⟩ : ∃ k, fuel = k + 1 := Nat.exists_eq_add_one.2 (Nat.zero_lt_of_lt hfuel)
    rfl
  | blank _ ih =>
    obtain ⟨fuel, rfl⟩ : ∃ k, fuel = k + 1 := Nat.exists_eq_add_one.2 (Nat.zero_lt_of_lt hfuel)
    rw [← ih (Nat.lt_of_succ_lt_succ hfuel)]
    rfl
  | line hline _ ih =>
    obtain ⟨fuel, rfl⟩ : ∃ k, fuel = k + 1 := Nat.exists_eq_add_one.2 (Nat.zero_lt_of_lt hfuel)
    rw [hline.statements?_eq, ih]
    · rfl
    · rw [List.length_append, List.length_cons] at hfuel
      omega

end Lines

end Brigade.Toml
