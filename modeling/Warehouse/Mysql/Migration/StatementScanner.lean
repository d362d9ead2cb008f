/-
# Warehouse.Mysql.Migration.StatementScanner — what `isSingleServerStatement` accepts

The scanner classifies every position of a text: it is code, or it belongs to a quoted text or to a
comment.  `reading` is that classification for the whole text, also where the scanner would already
have returned; it is computed from `Scanner.step`.  A text is accepted exactly if it ends outside of
quotes and block comments, has code before its first terminator, and has no code after it.  What
opens a quote counts as code in neither place, so a quoted text may stand behind the terminator.
-/
import Mathlib.Data.List.TakeWhile
import Warehouse.Mysql.Migration.Manifest

namespace Warehouse.Mysql.Migration

namespace Scanner

/-! ## The classification of positions -/

/-- The state of the reading after a character, whatever was decided about the text so far. -/
def advance (s : Scanner) (c : UInt8) (next after : Option UInt8) : Scanner :=
  (step ⟨s.state, s.skip, false, false⟩ c next after).getD {}

/-- What a character belongs to: the quote or comment that is being read or that it opens, or code.
A skipped character belongs to what the one before it belonged to. -/
def classOf (s : Scanner) (c : UInt8) (next after : Option UInt8) : ScanState :=
  if s.skip then (if s.state = .code then .blockComment else s.state)
  else if s.state = .code then (s.advance c next after).state
  else s.state

/-- The characters of a text with their classes. -/
def reading (s : Scanner) : Bytes → List (UInt8 × ScanState)
  | [] => []
  | c :: rest =>
      (c, s.classOf c rest.head? rest.tail.head?) ::
        (s.advance c rest.head? rest.tail.head?).reading rest

/-- The state of the reading at the end of a text. -/
def final (s : Scanner) : Bytes → ScanState
  | [] => s.state
  | c :: rest => (s.advance c rest.head? rest.tail.head?).final rest

/-- A character of code that is neither white space nor a terminator. -/
def Significant (p : UInt8 × ScanState) : Prop := p.2 = .code ∧ isspace p.1 = false ∧ p.1 ≠ 59

instance (p : UInt8 × ScanState) : Decidable (Significant p) :=
  inferInstanceAs (Decidable (_ ∧ _ ∧ _))

/-- A terminator: a semicolon that is code. -/
def terminator : UInt8 × ScanState := (59, .code)

/-- What a character of code opens, and whether the next one belongs to the opening. -/
def opens (c : UInt8) (next after : Option UInt8) : Option (ScanState × Bool) :=
  if c = 35 then some (.lineComment, false)
  else if c = 45 ∧ next = some 45 ∧ after.any isspace then some (.lineComment, true)
  else if c = 47 ∧ next = some 42 then some (.blockComment, true)
  else if c = 39 then some (.singleQuote, false)
  else if c = 34 then some (.doubleQuote, false)
  else if c = 96 then some (.backtick, false)
  else none

section Steps

variable {s : Scanner} {c : UInt8} {next after : Option UInt8} {opening : ScanState × Bool}

theorem opens_ne_code (h : opens c next after = some opening) : opening.1 ≠ .code := by
  unfold opens at h
  split_ifs at h <;> cases h <;> nofun

/-- A turn of the loop that opens a quote or a comment. -/
theorem step_opens (hskip : s.skip = false) (hcode : s.state = .code)
    (h : opens c next after = some opening) :
    s.step c next after = some { s with state := opening.1, skip := opening.2 } := by
  unfold opens at h
  simp only [step, hskip, hcode, Bool.false_eq_true, if_false]
  split_ifs at h ⊢ <;> cases h <;> simp

/-- A turn of the loop on a character of code. -/
theorem step_code (hskip : s.skip = false) (hcode : s.state = .code)
    (h : opens c next after = none) :
    s.step c next after =
      if c = 59 then some { s with ended := true }
      else if s.ended && !isspace c then none
      else if !isspace c then some { s with sawCode := true }
      else some s := by
  unfold opens at h
  simp only [step, hskip, hcode, Bool.false_eq_true, if_false]
  split_ifs at h ⊢ <;> rfl

/-- A turn of the loop inside a quote or a comment. -/
theorem step_inside (hskip : s.skip = false) (hinside : s.state ≠ .code) :
    ∃ state skip, ∀ ended sawCode,
      step ⟨s.state, s.skip, ended, sawCode⟩ c next after = some ⟨state, skip, ended, sawCode⟩ := by
  obtain ⟨state, skip, ended, sawCode⟩ := s
  obtain rfl : skip = false := hskip
  cases state with
  | code => exact absurd rfl hinside
  | lineComment =>
      refine ⟨if c = 10 then .code else .lineComment, false, fun ended sawCode => ?_⟩
      simp only [step, Bool.false_eq_true, if_false]
      split_ifs <;> rfl
  | blockComment =>
      refine ⟨if c = 42 ∧ next = some 47 then .code else .blockComment,
        decide (c = 42 ∧ next = some 47), fun ended sawCode => ?_⟩
      simp only [step, Bool.false_eq_true, if_false]
      split_ifs with hend <;> simp [hend]
  | singleQuote | doubleQuote | backtick =>
      simp only [step, Bool.false_eq_true, if_false]
      split_ifs <;> exact ⟨_, _, fun _ _ => rfl⟩

theorem advance_opens (hskip : s.skip = false) (hcode : s.state = .code)
    (h : opens c next after = some opening) :
    s.advance c next after = ⟨opening.1, opening.2, false, false⟩ := by
  unfold advance
  rw [@step_opens ⟨s.state, s.skip, false, false⟩ c next after opening hskip hcode h]
  rfl

theorem advance_code (hskip : s.skip = false) (hcode : s.state = .code)
    (h : opens c next after = none) :
    s.advance c next after =
      if c = 59 then ⟨.code, false, true, false⟩
      else if isspace c then ⟨.code, false, false, false⟩
      else ⟨.code, false, false, true⟩ := by
  unfold advance
  rw [@step_code ⟨s.state, s.skip, false, false⟩ c next after hskip hcode h, hskip, hcode]
  split_ifs <;> simp_all

theorem classOf_opens (hskip : s.skip = false) (hcode : s.state = .code)
    (h : opens c next after = some opening) : s.classOf c next after = opening.1 := by
  simp [classOf, hskip, hcode, advance_opens hskip hcode h]

theorem classOf_code (hskip : s.skip = false) (hcode : s.state = .code)
    (h : opens c next after = none) : s.classOf c next after = .code := by
  have hstate : (s.advance c next after).state = .code := by
    rw [advance_code hskip hcode h]
    split_ifs <;> rfl
  simp [classOf, hskip, hcode, hstate]

theorem classOf_inside (hskip : s.skip = false) (hinside : s.state ≠ .code) :
    s.classOf c next after = s.state := by
  simp [classOf, hskip, hinside]

/-- One turn of the loop in terms of the classification: it returns only at a significant character
behind a terminator, and otherwise notes terminators and significant characters. -/
theorem step_eq (s : Scanner) (c : UInt8) (next after : Option UInt8) :
    s.step c next after =
      if Significant (c, s.classOf c next after) then
        if s.ended then none
        else some { s.advance c next after with ended := false, sawCode := true }
      else some { s.advance c next after with
        ended := s.ended || (c, s.classOf c next after) = terminator
        sawCode := s.sawCode } := by
  by_cases hskip : s.skip = true
  · cases hstate : s.state <;>
      simp [step, classOf, advance, Significant, terminator, hskip, hstate]
  rw [Bool.not_eq_true] at hskip
  by_cases hcode : s.state = .code
  · cases hopens : opens c next after with
    | some opening =>
        have hne := opens_ne_code hopens
        rw [step_opens hskip hcode hopens, classOf_opens hskip hcode hopens,
          advance_opens hskip hcode hopens]
        simp [Significant, terminator, hne]
    | none =>
        obtain ⟨state, skip, ended, sawCode⟩ := s
        obtain rfl : skip = false := hskip
        obtain rfl : state = .code := hcode
        rw [step_code rfl rfl hopens, classOf_code rfl rfl hopens, advance_code rfl rfl hopens]
        unfold Significant terminator
        split_ifs <;> simp_all
  · obtain ⟨state, skip, hstep⟩ := @step_inside s c next after hskip hcode
    have hadvance : s.advance c next after = ⟨state, skip, false, false⟩ := by
      have hfree := hstep false false
      unfold advance
      rw [hfree]
      rfl
    have hthis : s.step c next after = some ⟨state, skip, s.ended, s.sawCode⟩ :=
      hstep s.ended s.sawCode
    rw [hthis, classOf_inside hskip hcode, hadvance]
    simp [Significant, terminator, hcode]

end Steps

/-! ## What the loop decides -/

section Loop

variable {s : Scanner} {sql : Bytes}

/-- The classification does not depend on what was decided so far. -/
@[simp] theorem reading_flags (s : Scanner) (ended sawCode : Bool) (sql : Bytes) :
    reading ⟨s.state, s.skip, ended, sawCode⟩ sql = s.reading sql := by
  cases sql <;> rfl

@[simp] theorem final_flags (s : Scanner) (ended sawCode : Bool) (sql : Bytes) :
    final ⟨s.state, s.skip, ended, sawCode⟩ sql = s.final sql := by
  cases sql <;> rfl

/-- The loop over one more character. -/
theorem scan_cons (s : Scanner) (c : UInt8) (rest : Bytes) :
    ∃ p t, s.reading (c :: rest) = p :: reading t rest ∧ s.final (c :: rest) = final t rest ∧
      s.scan (c :: rest) =
        if Significant p then
          if s.ended then false else scan ⟨t.state, t.skip, false, true⟩ rest
        else scan ⟨t.state, t.skip, s.ended || p = terminator, s.sawCode⟩ rest := by
  refine ⟨_, _, rfl, rfl, ?_⟩
  rw [scan, step_eq]
  split_ifs <;> rfl

/-- A text may end in code or in a line comment. -/
def Closed (state : ScanState) : Prop := state = .code ∨ state = .lineComment

/-- Behind a terminator the loop goes on while nothing significant comes. -/
theorem scan_ended (hended : s.ended = true) :
    s.scan sql = true ↔
      Closed (s.final sql) ∧ s.sawCode = true ∧ ∀ p ∈ s.reading sql, ¬ Significant p := by
  induction sql generalizing s with
  | nil => simp [scan, final, reading, Closed, and_comm]
  | cons c rest ih =>
      obtain ⟨p, t, hreading, hfinal, hscan⟩ := s.scan_cons c rest
      rw [hreading, hfinal, hscan, hended]
      by_cases hsignificant : Significant p
      · simp [hsignificant]
      · rw [if_neg hsignificant, ih rfl]
        simp [hsignificant]

/-- The characters before the first terminator. -/
def beforeTerminator (ps : List (UInt8 × ScanState)) : List (UInt8 × ScanState) :=
  ps.takeWhile (· ≠ terminator)

/-- The characters behind the first terminator. -/
def behindTerminator (ps : List (UInt8 × ScanState)) : List (UInt8 × ScanState) :=
  (ps.dropWhile (· ≠ terminator)).tail

/-- Up to the first terminator the loop looks for something significant. -/
theorem scan_open (hopen : s.ended = false) :
    s.scan sql = true ↔
      Closed (s.final sql) ∧
        (s.sawCode = true ∨ ∃ p ∈ beforeTerminator (s.reading sql), Significant p) ∧
        ∀ p ∈ behindTerminator (s.reading sql), ¬ Significant p := by
  induction sql generalizing s with
  | nil => simp [scan, final, reading, Closed, and_comm, beforeTerminator, behindTerminator]
  | cons c rest ih =>
      obtain ⟨p, t, hreading, hfinal, hscan⟩ := s.scan_cons c rest
      rw [hreading, hfinal, hscan, hopen]
      by_cases hterminator : p = terminator
      · subst hterminator
        have hplain : ¬ Significant terminator := fun h => h.2.2 rfl
        have hbefore : beforeTerminator (terminator :: t.reading rest) = [] := by
          simp [beforeTerminator]
        have hbehind : behindTerminator (terminator :: t.reading rest) = t.reading rest := by
          simp [behindTerminator]
        rw [if_neg hplain, scan_ended (by simp), hbefore, hbehind]
        simp
      · have hbefore : beforeTerminator (p :: t.reading rest) =
            p :: beforeTerminator (t.reading rest) := by
          simp [beforeTerminator, hterminator]
        have hbehind : behindTerminator (p :: t.reading rest) =
            behindTerminator (t.reading rest) := by
          simp [behindTerminator, hterminator]
        rw [hbefore, hbehind]
        by_cases hsignificant : Significant p
        · rw [if_pos hsignificant, if_neg Bool.false_ne_true, ih rfl]
          simp [hsignificant]
        · rw [if_neg hsignificant, ih (by simp [hterminator])]
          simp [hsignificant]

end Loop

end Scanner

/-! ## What is accepted -/

open Scanner

section Accepted

variable {sql : Bytes}

/-- The text does not end inside a quote or a block comment. -/
def EndsClosed (sql : Bytes) : Prop := Closed (final {} sql)

/-- Before the first terminator there is code other than white space. -/
def HasCode (sql : Bytes) : Prop :=
  ∃ p ∈ beforeTerminator (reading {} sql), p.2 = .code ∧ isspace p.1 = false

/-- Behind the first terminator there are only white space, terminators and comments. -/
def NothingFollows (sql : Bytes) : Prop :=
  ∀ p ∈ behindTerminator (reading {} sql),
    (p.2 = .code ∧ (isspace p.1 = true ∨ p.1 = 59)) ∨ p.2 = .lineComment ∨ p.2 = .blockComment

/-- Behind the first terminator there is no code but white space and terminators. -/
def NoCodeFollows (sql : Bytes) : Prop :=
  ∀ p ∈ behindTerminator (reading {} sql), p.2 = .code → isspace p.1 = true ∨ p.1 = 59

/-- No quoted text, of any of the three kinds, stands behind the first terminator. -/
def NoQuoteFollows (sql : Bytes) : Prop :=
  ∀ p ∈ behindTerminator (reading {} sql),
    p.2 ≠ .singleQuote ∧ p.2 ≠ .doubleQuote ∧ p.2 ≠ .backtick

theorem hasCode_iff : HasCode sql ↔ ∃ p ∈ beforeTerminator (reading {} sql), Significant p := by
  constructor
  · rintro ⟨p, hp, hcode, hspace⟩
    refine ⟨p, hp, hcode, hspace, ?_⟩
    intro hsemicolon
    have hne := List.mem_takeWhile_imp hp
    simp [terminator, Prod.ext_iff, hsemicolon, hcode] at hne
  · rintro ⟨p, hp, hcode, hspace, -⟩
    exact ⟨p, hp, hcode, hspace⟩

theorem noCodeFollows_iff :
    NoCodeFollows sql ↔ ∀ p ∈ behindTerminator (reading {} sql), ¬ Significant p := by
  refine forall_congr' fun p => forall_congr' fun _ => ?_
  unfold Significant
  cases isspace p.1 <;> simp

theorem nothingFollows_iff_noCode :
    NothingFollows sql ↔ NoCodeFollows sql ∧ NoQuoteFollows sql := by
  unfold NothingFollows NoCodeFollows NoQuoteFollows
  rw [← forall₂_and]
  refine forall_congr' fun p => forall_congr' fun _ => ?_
  cases p.2 <;> simp

/-- What the scanner accepts. -/
theorem isSingleServerStatement_iff :
    isSingleServerStatement sql = true ↔ EndsClosed sql ∧ HasCode sql ∧ NoCodeFollows sql := by
  unfold isSingleServerStatement
  rw [scan_open rfl, hasCode_iff, noCodeFollows_iff]
  simp [EndsClosed]

example : isSingleServerStatement (lit "SELECT ';' AS value;") = true := by decide
example : isSingleServerStatement (lit "/* ; */ CREATE TABLE x(id INT);") = true := by decide
example : isSingleServerStatement (lit "SELECT 1; SELECT 2;") = false := by decide

/-- Nothing but white space, terminators and comments stands behind the terminator of an accepted
text, and every text with that property is accepted, exactly where a text that is otherwise in order
has no quoted text behind its terminator. -/
theorem nothingFollows_iff (sql : Bytes) :
    (isSingleServerStatement sql = true ↔ EndsClosed sql ∧ HasCode sql ∧ NothingFollows sql) ↔
      (EndsClosed sql → HasCode sql → NoCodeFollows sql → NoQuoteFollows sql) := by
  rw [isSingleServerStatement_iff, nothingFollows_iff_noCode]
  constructor
  · intro h hends hcode hnocode
    exact (h.mp ⟨hends, hcode, hnocode⟩).2.2.2
  · intro h
    constructor
    · rintro ⟨hends, hcode, hnocode⟩
      exact ⟨hends, hcode, hnocode, h hends hcode hnocode⟩
    · rintro ⟨hends, hcode, hnocode, -⟩
      exact ⟨hends, hcode, hnocode⟩

/-- A string literal behind the terminator. -/
theorem quoteBehindTerminator_accepted :
    isSingleServerStatement (lit "SELECT 1; 'x'") = true ∧ ¬ NothingFollows (lit "SELECT 1; 'x'") := by
  refine ⟨by decide, ?_⟩
  intro hnothing
  have hquote : (39, ScanState.singleQuote) ∈
      behindTerminator (reading {} (lit "SELECT 1; 'x'")) := by decide
  have hallowed := hnothing _ hquote
  simp at hallowed

end Accepted

end Warehouse.Mysql.Migration
