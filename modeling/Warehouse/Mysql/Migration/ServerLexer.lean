/-
# Warehouse.Mysql.Migration.ServerLexer — the scanner's reading against the server's

`Lexer` is how the server splits a statement text while neither ANSI_QUOTES nor NO_BACKSLASH_ESCAPES
is set: a backslash escapes inside strings but not inside backquoted identifiers, `--` also starts a
comment in front of a control character and at the end of the text, and what stands inside `/*!` and
`*/` is code.  The scanner knows none of the three exceptions, and `Snag` lists the places where that
shows.  Its reading is the server's, up to where it returns, exactly if it meets no snag.
-/
import Mathlib.Data.List.DropRight
import Warehouse.Mysql.Migration.StatementScanner

namespace Warehouse.Mysql.Migration

/-! ## The server's lexer -/

/-- `iscntrl` in the C locale. -/
def iscntrl (c : UInt8) : Bool := c < 32 || c == 127

/-- Where the server's lexer stands: what it is reading, what the next character belongs to if that
is already settled, and whether it is inside an executable comment. -/
structure Lexer where
  state : ScanState := .code
  skip : Option ScanState := none
  executable : Bool := false
  deriving DecidableEq, Repr

namespace Lexer

/-- What a character belongs to, and where the lexer stands behind it. -/
def step (l : Lexer) (c : UInt8) (next after : Option UInt8) : ScanState × Lexer :=
  match l.skip with
  | some token => (token, { l with skip := none })
  | none =>
      match l.state with
      | .lineComment => (.lineComment, if c = 10 then { l with state := .code } else l)
      | .blockComment =>
          (.blockComment, if c = 42 ∧ next = some 47 then
            { l with state := .code, skip := some .blockComment } else l)
      | .backtick =>
          (.backtick, if c = 96 then
            if next = some 96 then { l with skip := some .backtick } else { l with state := .code }
            else l)
      | .singleQuote | .doubleQuote =>
          (l.state, if c = 92 then { l with skip := some l.state }
            else if c = l.state.delimiter then
              if next = some l.state.delimiter then { l with skip := some l.state }
              else { l with state := .code }
            else l)
      | .code =>
          if c = 35 then (.lineComment, { l with state := .lineComment })
          else if c = 45 ∧ next = some 45 ∧ after.all (fun a => isspace a || iscntrl a) then
            (.lineComment, { l with state := .lineComment, skip := some .lineComment })
          else if c = 47 ∧ next = some 42 ∧ after = some 33 then
            (.code, { l with skip := some .code, executable := true })
          else if c = 47 ∧ next = some 42 then
            (.blockComment, { l with state := .blockComment, skip := some .blockComment })
          else if c = 42 ∧ next = some 47 ∧ l.executable then
            (.code, { l with skip := some .code, executable := false })
          else if c = 39 then (.singleQuote, { l with state := .singleQuote })
          else if c = 34 then (.doubleQuote, { l with state := .doubleQuote })
          else if c = 96 then (.backtick, { l with state := .backtick })
          else (.code, l)

/-- The characters of a text with what they belong to for the server. -/
def reading (l : Lexer) : Bytes → List (UInt8 × ScanState)
  | [] => []
  | c :: rest =>
      (c, (l.step c rest.head? rest.tail.head?).1) ::
        (l.step c rest.head? rest.tail.head?).2.reading rest

/-- Where the lexer stands between the two parts of a text. -/
def between (l : Lexer) : Bytes → Bytes → Lexer
  | [], _ => l
  | c :: past, rest =>
      (l.step c (past ++ rest).head? (past ++ rest).tail.head?).2.between past rest

end Lexer

/-- The part of the scanner's reading that it gets to before it returns. -/
def Scanner.visited (s : Scanner) : Bytes → List (UInt8 × ScanState)
  | [] => []
  | c :: rest =>
      (c, s.classOf c rest.head? rest.tail.head?) ::
        match s.step c rest.head? rest.tail.head? with
        | none => []
        | some s' => s'.visited rest

/-! ## Where the two part -/

/-- The text ends with an odd number of backslashes. -/
def escaped (past : Bytes) : Bool := (past.rtakeWhile (· == 92)).length % 2 == 1

/-- Places between `past` and the rest of a text, in a given state of the server's lexer, where the
scanner goes another way. -/
inductive Snag (past : Bytes) : ScanState → Bytes → Prop
  /-- `/*!` in code. -/
  | executable {post : Bytes} : Snag past .code (47 :: 42 :: 33 :: post)
  /-- `--` in code at the end of the text. -/
  | dashesLast : Snag past .code [45, 45]
  /-- `--` in code before a control character that is no white space. -/
  | dashesControl {c : UInt8} {post : Bytes} (hcontrol : iscntrl c = true)
      (hspace : isspace c = false) : Snag past .code (45 :: 45 :: c :: post)
  /-- In a backquoted identifier, backquotes behind an odd number of backslashes, if the text goes
  on behind them. -/
  | escapedTick {n : ℕ} {c : UInt8} {post : Bytes} (hescaped : escaped past = true) (hc : c ≠ 96) :
      Snag past .backtick (List.replicate (n + 1) 96 ++ c :: post)

/-- The scanner has not returned yet: nothing significant stands behind a terminator. -/
def Undecided (ps : List (UInt8 × ScanState)) : Prop :=
  ∀ p ∈ Scanner.behindTerminator ps, ¬ Scanner.Significant p

/-- The scanner meets no snag before it returns. -/
def NoSnag (sql : Bytes) : Prop :=
  ∀ past rest, sql = past ++ rest → Undecided ((Lexer.reading {} sql).take past.length) →
    (Lexer.between {} past rest).skip = none → ¬ Snag past (Lexer.between {} past rest).state rest

/-! ## In step -/

/-- The scanner and the lexer are at the same place of the text, and read it alike: in a backquoted
identifier the scanner may be about to skip a character because of a backslash. -/
structure Alike (past rest : Bytes) (s : Scanner) (l : Lexer) : Prop where
  state : s.state = l.state
  plain : l.executable = false
  skips : ∀ token, l.skip = some token →
    s.skip = true ∧ token = (if s.state = .code then .blockComment else s.state) ∧
      (l.state = .backtick → rest.head? = some 96)
  reads : l.skip = none → s.skip = (decide (l.state = .backtick) && escaped past)

section Lockstep

variable {past rest : Bytes} {s : Scanner} {l : Lexer} {c : UInt8} {next after : Option UInt8}

theorem escaped_append (past : Bytes) (c : UInt8) :
    escaped (past ++ [c]) = (c == 92 && !escaped past) := by
  unfold escaped
  rw [List.rtakeWhile_concat]
  by_cases hc : c = 92
  · simp only [hc, beq_self_eq_true, if_true, Bool.true_and, List.length_append, List.length_singleton]
    rcases Nat.mod_two_eq_zero_or_one (past.rtakeWhile (· == 92)).length with h | h <;>
      simp [Nat.add_mod, h]
  · simp [hc]

theorem escaped_tick (past : Bytes) : escaped (past ++ [96]) = false := by
  rw [escaped_append]
  rfl

/-- In code, away from the snags, the lexer opens what the scanner opens. -/
theorem lexer_step_code (hskip : l.skip = none) (hcode : l.state = .code)
    (hplain : l.executable = false)
    (hexecutable : ¬ (c = 47 ∧ next = some 42 ∧ after = some 33))
    (hdashes : c = 45 → next = some 45 →
      (after.all fun a => isspace a || iscntrl a) = after.any isspace) :
    l.step c next after =
      match Scanner.opens c next after with
      | some (token, more) =>
          (token, { l with state := token, skip := if more then some token else none })
      | none => (.code, l) := by
  obtain ⟨state, skip, executable⟩ := l
  obtain rfl : skip = none := hskip
  obtain rfl : state = .code := hcode
  obtain rfl : executable = false := hplain
  simp only [Lexer.step, Scanner.opens]
  by_cases hhash : c = 35
  · simp [hhash]
  by_cases hdash : c = 45 ∧ next = some 45
  · obtain ⟨rfl, rfl⟩ := hdash
    rw [hdashes rfl rfl]
    cases after.any isspace <;> simp
  by_cases hblock : c = 47 ∧ next = some 42
  · obtain ⟨rfl, rfl⟩ := hblock
    have hafter : after ≠ some 33 := fun h => hexecutable ⟨rfl, rfl, h⟩
    simp [hafter]
  have hdash' : ∀ b : Bool, ¬ (c = 45 ∧ next = some 45 ∧ b = true) :=
    fun b h => hdash ⟨h.1, h.2.1⟩
  rw [if_neg hhash, if_neg hhash, if_neg (hdash' _), if_neg (hdash' _), if_neg hexecutable,
    if_neg hblock, if_neg hblock]
  split_ifs <;> simp_all

theorem opens_more {token : ScanState} {more : Bool}
    (h : Scanner.opens c next after = some (token, more)) :
    (more = true → token ≠ .backtick) ∧ (token = .backtick → c = 96) := by
  unfold Scanner.opens at h
  split_ifs at h <;> cases h <;> simp_all

theorem alike_flags (h : Alike past rest s l) (ended sawCode : Bool) :
    Alike past rest ⟨s.state, s.skip, ended, sawCode⟩ l :=
  ⟨h.state, h.plain, h.skips, h.reads⟩

/-- A character that the one before it has settled. -/
theorem Alike.turn_skip (h : Alike past (c :: rest) s l) {token : ScanState}
    (hskip : l.skip = some token) :
    s.classOf c next after = (l.step c next after).1 ∧
      Alike (past ++ [c]) rest (s.advance c next after) (l.step c next after).2 := by
  obtain ⟨hs, htoken, htick⟩ := h.skips token hskip
  have hstep : l.step c next after = (token, { l with skip := none }) := by
    simp [Lexer.step, hskip]
  have hadvance : s.advance c next after = ⟨s.state, false, false, false⟩ := by
    simp [Scanner.advance, Scanner.step, hs]
  rw [hstep, hadvance]
  refine ⟨by simp [Scanner.classOf, hs, htoken], h.state, h.plain, by simp, fun _ => ?_⟩
  by_cases hbacktick : l.state = .backtick
  · have hc : c = 96 := by simpa using htick hbacktick
    rw [hc, escaped_tick]
    simp
  · simp [hbacktick]

/-- A character of code. -/
theorem Alike.turn_code (h : Alike past (c :: rest) s l) (hskip : l.skip = none)
    (hcode : l.state = .code) (hsnag : ¬ Snag past .code (c :: rest)) :
    s.classOf c rest.head? rest.tail.head? = (l.step c rest.head? rest.tail.head?).1 ∧
      Alike (past ++ [c]) rest (s.advance c rest.head? rest.tail.head?)
        (l.step c rest.head? rest.tail.head?).2 := by
  have hs : s.skip = false := by simpa [hcode] using h.reads hskip
  have hstate : s.state = .code := h.state.trans hcode
  have hexecutable : ¬ (c = 47 ∧ rest.head? = some 42 ∧ rest.tail.head? = some 33) := by
    rintro ⟨rfl, hnext, hafter⟩
    obtain ⟨more, rfl⟩ := List.head?_eq_some_iff.mp hnext
    obtain ⟨post, rfl⟩ := List.head?_eq_some_iff.mp hafter
    exact hsnag .executable
  have hdashes : c = 45 → rest.head? = some 45 →
      (rest.tail.head?.all fun a => isspace a || iscntrl a) = rest.tail.head?.any isspace := by
    rintro rfl hnext
    obtain ⟨more, rfl⟩ := List.head?_eq_some_iff.mp hnext
    cases more with
    | nil => exact absurd .dashesLast hsnag
    | cons a post =>
        by_cases hspace : isspace a = true
        · simp [hspace]
        · have hcontrol : iscntrl a = false := by
            by_contra hcontrol
            exact hsnag (.dashesControl (by simpa using hcontrol) (by simpa using hspace))
          simp [hspace, hcontrol]
  rw [lexer_step_code hskip hcode h.plain hexecutable hdashes]
  cases hopens : Scanner.opens c rest.head? rest.tail.head? with
  | some opening =>
      obtain ⟨token, more⟩ := opening
      obtain ⟨hmore, htick⟩ := opens_more hopens
      have htoken := Scanner.opens_ne_code hopens
      rw [Scanner.classOf_opens hs hstate hopens, Scanner.advance_opens hs hstate hopens]
      refine ⟨rfl, rfl, h.plain, ?_, ?_⟩
      · intro token' htoken'
        cases more with
        | false => cases htoken'
        | true =>
            cases htoken'
            exact ⟨rfl, by simpa using fun hc => absurd hc htoken, fun hb => absurd hb (hmore rfl)⟩
      · intro hnone
        cases more with
        | true => cases hnone
        | false =>
            by_cases hbacktick : token = .backtick
            · rw [htick hbacktick, escaped_tick]
              simp
            · simp [hbacktick]
  | none =>
      rw [Scanner.classOf_code hs hstate hopens, Scanner.advance_code hs hstate hopens]
      refine ⟨rfl, ?_⟩
      split_ifs <;> exact ⟨hcode.symm, h.plain, by simp [hskip], by simp [hcode]⟩

/-- A character of a quoted text or a comment. -/
theorem Alike.turn_inside (h : Alike past (c :: rest) s l) (hskip : l.skip = none)
    (hcode : l.state ≠ .code)
    (htick : ¬ (l.state = .backtick ∧ escaped past = true ∧ c = 96)) :
    s.classOf c rest.head? rest.tail.head? = (l.step c rest.head? rest.tail.head?).1 ∧
      Alike (past ++ [c]) rest (s.advance c rest.head? rest.tail.head?)
        (l.step c rest.head? rest.tail.head?).2 := by
  obtain ⟨state, skip, ended, sawCode⟩ := s
  obtain ⟨state', skip', executable⟩ := l
  obtain rfl : state = state' := h.state
  obtain rfl : skip' = none := hskip
  obtain rfl : executable = false := h.plain
  obtain rfl : skip = (decide (state = .backtick) && escaped past) := h.reads rfl
  cases state with
  | code => exact absurd rfl hcode
  | lineComment =>
      refine ⟨rfl, ?_⟩
      by_cases hend : c = 10 <;>
        simp only [Lexer.step, Scanner.advance, Scanner.step, hend] <;>
        constructor <;> simp
  | blockComment =>
      refine ⟨rfl, ?_⟩
      by_cases hend : c = 42 ∧ rest.head? = some 47 <;>
        simp only [Lexer.step, Scanner.advance, Scanner.step, hend] <;>
        constructor <;> simp
  | singleQuote | doubleQuote =>
      refine ⟨rfl, ?_⟩
      simp only [Lexer.step, Scanner.advance, Scanner.step]
      split_ifs <;> constructor <;> simp_all
  | backtick =>
      -- an escaped character is skipped, and only a backquote would have mattered
      cases hescaped : escaped past with
      | true =>
          have hc : c ≠ 96 := fun hc => htick ⟨rfl, hescaped, hc⟩
          refine ⟨by simp [Scanner.classOf, Lexer.step], ?_⟩
          have hlater : escaped (past ++ [c]) = false := by simp [escaped_append, hescaped]
          constructor <;> simp [Lexer.step, Scanner.advance, Scanner.step, hc, hlater]
      | false =>
          refine ⟨by simp [Scanner.classOf, Lexer.step], ?_⟩
          have hlater : escaped (past ++ [c]) = (c == 92) := by simp [escaped_append, hescaped]
          by_cases hbackslash : c = 92
          · subst hbackslash
            constructor <;> simp [Lexer.step, Scanner.advance, Scanner.step, hlater]
          by_cases htick' : c = 96
          · subst htick'
            by_cases hdoubled : rest.head? = some 96 <;>
              constructor <;>
              simp [Lexer.step, Scanner.advance, Scanner.step, ScanState.delimiter, hdoubled, hlater]
          · constructor <;>
              simp [Lexer.step, Scanner.advance, Scanner.step, ScanState.delimiter, hbackslash, htick',
                hlater]

/-! ## Out of step -/

/-- Backquotes that the scanner and the lexer pair differently. -/
structure Crossed (s : Scanner) (l : Lexer) : Prop where
  scanner : s.state = .backtick
  lexer : l.state = .backtick
  skips : (s.skip = true ∧ l.skip = none) ∨ (s.skip = false ∧ l.skip = some .backtick)

/-- A character outside of code is passed over. -/
theorem visited_inside {token : ScanState} (h : s.classOf c rest.head? rest.tail.head? = token)
    (hcode : token ≠ .code) :
    ∃ s' : Scanner, s'.state = (s.advance c rest.head? rest.tail.head?).state ∧
      s'.skip = (s.advance c rest.head? rest.tail.head?).skip ∧
      s.visited (c :: rest) = (c, token) :: s'.visited rest := by
  have hplain : ¬ Scanner.Significant (c, token) := fun hsignificant => hcode hsignificant.1
  refine ⟨{ s.advance c rest.head? rest.tail.head? with
    ended := s.ended || (c, token) = Scanner.terminator
    sawCode := s.sawCode }, rfl, rfl, ?_⟩
  rw [Scanner.visited, Scanner.step_eq, h, if_neg hplain]

/-- Code is not part of an identifier unless a backquote opens one. -/
theorem lexer_class_ne (hcode : l.state = .code) (hskip : l.skip = none) (hc : c ≠ 96) :
    (l.step c next after).1 ≠ .backtick := by
  unfold Lexer.step
  rw [hskip, hcode]
  dsimp only
  split_ifs <;> nofun

theorem scanner_class_ne (hcode : s.state = .code) (hskip : s.skip = false) (hc : c ≠ 96) :
    s.classOf c next after ≠ .backtick := by
  cases hopens : Scanner.opens c next after with
  | some opening =>
      rw [Scanner.classOf_opens hskip hcode hopens]
      exact fun hbacktick => hc ((opens_more hopens).2 hbacktick)
  | none =>
      rw [Scanner.classOf_code hskip hcode hopens]
      nofun

/-- A backquote leaves them crossed if another one follows; otherwise one of them has left the
identifier and the other has not. -/
theorem Crossed.tick (h : Crossed s l) (rest : Bytes) :
    ∃ s' l', s.visited (96 :: rest) = (96, .backtick) :: Scanner.visited s' rest ∧
      l.reading (96 :: rest) = (96, .backtick) :: Lexer.reading l' rest ∧
      (rest.head? = some 96 → Crossed s' l') ∧
      (rest.head? ≠ some 96 →
        (s'.state = .backtick ∧ l'.state = .code ∨ s'.state = .code ∧ l'.state = .backtick) ∧
        s'.skip = false ∧ l'.skip = none) := by
  obtain ⟨hscanner, hlexer, hskips⟩ := h
  have hclass : s.classOf 96 rest.head? rest.tail.head? = .backtick := by
    simp [Scanner.classOf, hscanner]
  have hread : (l.step 96 rest.head? rest.tail.head?).1 = .backtick := by
    rcases hskips with ⟨-, hl⟩ | ⟨-, hl⟩ <;> simp [Lexer.step, hl, hlexer]
  obtain ⟨s', hstate, hskip, hvisited⟩ := visited_inside hclass (by decide)
  refine ⟨s', (l.step 96 rest.head? rest.tail.head?).2, hvisited, by rw [Lexer.reading, hread], ?_, ?_⟩
  · intro hnext
    rcases hskips with ⟨hs, hl⟩ | ⟨hs, hl⟩ <;>
      constructor <;>
      simp [hstate, hskip, Scanner.advance, Scanner.step, Lexer.step, ScanState.delimiter, hs, hl,
        hscanner, hlexer, hnext]
  · intro hnext
    rcases hskips with ⟨hs, hl⟩ | ⟨hs, hl⟩ <;>
      simp [hstate, hskip, Scanner.advance, Scanner.step, Lexer.step, ScanState.delimiter, hs, hl,
        hscanner, hlexer, hnext]

/-- What the two read next is not the same if only one of them is still in the identifier. -/
theorem parted_diverges {post : Bytes}
    (hparted : s.state = .backtick ∧ l.state = .code ∨ s.state = .code ∧ l.state = .backtick)
    (hs : s.skip = false) (hl : l.skip = none) (hc : c ≠ 96) :
    ¬ s.visited (c :: post) <+: l.reading (c :: post) := by
  intro hprefix
  obtain ⟨hsame, -⟩ := List.cons_prefix_cons.mp hprefix
  have hclass := (Prod.mk.inj hsame).2
  rcases hparted with ⟨hscanner, hlexer⟩ | ⟨hscanner, hlexer⟩
  · rw [Scanner.classOf_inside hs (by rw [hscanner]; nofun), hscanner] at hclass
    exact lexer_class_ne hlexer hl hc hclass.symm
  · have hinside : (l.step c post.head? post.tail.head?).1 = .backtick := by
      simp [Lexer.step, hl, hlexer]
    exact scanner_class_ne hscanner hs hc (hclass.trans hinside)

/-- Behind crossed backquotes the two read the next character differently. -/
theorem Crossed.diverges (h : Crossed s l) (n : ℕ) {post : Bytes} (hc : c ≠ 96) :
    ¬ s.visited (List.replicate (n + 1) 96 ++ c :: post) <+:
      l.reading (List.replicate (n + 1) 96 ++ c :: post) := by
  induction n generalizing s l with
  | zero =>
      obtain ⟨s', l', hvisited, hreading, -, hlast⟩ := h.tick (c :: post)
      obtain ⟨hparted, hs, hl⟩ := hlast (by simpa using hc)
      show ¬ s.visited (96 :: c :: post) <+: l.reading (96 :: c :: post)
      rw [hvisited, hreading, List.cons_prefix_cons]
      exact fun hprefix => parted_diverges hparted hs hl hc hprefix.2
  | succ n ih =>
      obtain ⟨s', l', hvisited, hreading, hmore, -⟩ :=
        h.tick (List.replicate (n + 1) 96 ++ c :: post)
      have hcrossed : Crossed s' l' := hmore rfl
      rw [List.replicate_succ, List.cons_append, hvisited, hreading, List.cons_prefix_cons]
      exact fun hprefix => ih hcrossed hprefix.2

/-- Crossed backquotes at the end of the text are all read as part of the identifier. -/
theorem Crossed.agrees (h : Crossed s l) (n : ℕ) :
    s.visited (List.replicate (n + 1) 96) <+: l.reading (List.replicate (n + 1) 96) := by
  induction n generalizing s l with
  | zero =>
      obtain ⟨s', l', hvisited, hreading, -⟩ := h.tick []
      show s.visited [96] <+: l.reading [96]
      rw [hvisited, hreading]
      exact List.prefix_refl _
  | succ n ih =>
      obtain ⟨s', l', hvisited, hreading, hmore, -⟩ := h.tick (List.replicate (n + 1) 96)
      have hcrossed : Crossed s' l' := hmore rfl
      rw [List.replicate_succ, hvisited, hreading, List.cons_prefix_cons]
      exact ⟨rfl, ih hcrossed⟩

/-- At a snag the two part. -/
theorem Alike.diverges (h : Alike past rest s l) (hskip : l.skip = none)
    (hsnag : Snag past l.state rest) : ¬ s.visited rest <+: l.reading rest := by
  have hs := h.reads hskip
  have hstate := h.state
  obtain ⟨state, skip, executable⟩ := l
  obtain rfl : skip = none := hskip
  dsimp only at hsnag hs hstate
  cases hsnag with
  | @executable post =>
      intro hprefix
      have hclass := (Prod.mk.inj (List.cons_prefix_cons.mp hprefix).1).2
      have hopens : Scanner.opens 47 (some 42) (some 33) = some (.blockComment, true) := by decide
      have hread : ScanState.blockComment = .code :=
        (Scanner.classOf_opens (by simpa using hs) hstate hopens).symm.trans hclass
      cases hread
  | dashesLast =>
      intro hprefix
      have hclass := (Prod.mk.inj (List.cons_prefix_cons.mp hprefix).1).2
      have hopens : Scanner.opens 45 (some 45) none = none := by decide
      have hread : ScanState.code = .lineComment :=
        (Scanner.classOf_code (by simpa using hs) hstate hopens).symm.trans hclass
      cases hread
  | @dashesControl a post hcontrol hspace =>
      intro hprefix
      have hclass := (Prod.mk.inj (List.cons_prefix_cons.mp hprefix).1).2
      have hopens : Scanner.opens 45 (some 45) (some a) = none := by
        simp [Scanner.opens, hspace]
      have hread := (Scanner.classOf_code (by simpa using hs) hstate hopens).symm.trans hclass
      simp [Lexer.step, hcontrol] at hread
  | @escapedTick n c post hescaped hc =>
      have hskip' : s.skip = true := by simpa [hescaped] using hs
      exact Crossed.diverges ⟨hstate, rfl, Or.inl ⟨hskip', rfl⟩⟩ n hc

theorem Snag.exists_ne_tick {state : ScanState} (h : Snag past state rest) : ∃ x ∈ rest, x ≠ 96 := by
  cases h with
  | executable => exact ⟨47, by simp, by decide⟩
  | dashesLast => exact ⟨45, by simp, by decide⟩
  | dashesControl _ _ => exact ⟨45, by simp, by decide⟩
  | @escapedTick n c post _ hc => exact ⟨c, by simp, hc⟩

/-- Backquotes with nothing else behind them, or with something. -/
theorem ticks_or (rest : Bytes) :
    (∃ n, 96 :: rest = List.replicate (n + 1) 96) ∨
      ∃ n c post, c ≠ 96 ∧ 96 :: rest = List.replicate (n + 1) 96 ++ c :: post := by
  induction rest with
  | nil => exact Or.inl ⟨0, rfl⟩
  | cons c rest ih =>
      by_cases hc : c = 96
      · subst hc
        rcases ih with ⟨n, hall⟩ | ⟨n, a, post, ha, hsplit⟩
        · exact Or.inl ⟨n + 1, by rw [hall]; rfl⟩
        · exact Or.inr ⟨n + 1, a, post, ha, by rw [hsplit]; rfl⟩
      · exact Or.inr ⟨0, c, rest, hc, rfl⟩

end Lockstep

/-! ## Up to where the scanner returns -/

section Agreement

variable {past rest : Bytes} {s : Scanner} {l : Lexer} {c : UInt8} {ended : Bool}

/-- `Undecided` for what comes behind a terminator, if there has been one. -/
def UndecidedFrom (ended : Bool) (ps : List (UInt8 × ScanState)) : Prop :=
  if ended then ∀ p ∈ ps, ¬ Scanner.Significant p else Undecided ps

theorem undecidedFrom_cons {p : UInt8 × ScanState} {ps : List (UInt8 × ScanState)}
    (h : ¬ (ended = true ∧ Scanner.Significant p)) :
    UndecidedFrom ended (p :: ps) ↔ UndecidedFrom (ended || p = Scanner.terminator) ps := by
  unfold UndecidedFrom Undecided Scanner.behindTerminator
  cases ended with
  | true =>
      have hp : ¬ Scanner.Significant p := fun hsignificant => h ⟨rfl, hsignificant⟩
      simp [hp]
  | false => by_cases hp : p = Scanner.terminator <;> simp [hp]

/-- `NoSnag` for the rest of a text. -/
def NoSnagFrom (past : Bytes) (ended : Bool) (l : Lexer) (rest : Bytes) : Prop :=
  ∀ mid tail, rest = mid ++ tail → UndecidedFrom ended ((l.reading rest).take mid.length) →
    (l.between mid tail).skip = none → ¬ Snag (past ++ mid) (l.between mid tail).state tail

theorem noSnagFrom_cons :
    NoSnagFrom past ended l (c :: rest) ↔
      (l.skip = none → ¬ Snag past l.state (c :: rest)) ∧
        (¬ (ended = true ∧ Scanner.Significant (c, (l.step c rest.head? rest.tail.head?).1)) →
          NoSnagFrom (past ++ [c])
            (ended || (c, (l.step c rest.head? rest.tail.head?).1) = Scanner.terminator)
            (l.step c rest.head? rest.tail.head?).2 rest) := by
  constructor
  · intro h
    refine ⟨fun hskip => ?_, fun hgoes mid tail hsplit hundecided hskip => ?_⟩
    · have hfirst := h [] (c :: rest) rfl (by unfold UndecidedFrom; split <;> simp [Undecided,
        Scanner.behindTerminator]) hskip
      rwa [List.append_nil] at hfirst
    · subst hsplit
      have hlater := h (c :: mid) tail rfl ?_ hskip
      · rw [List.append_assoc]
        exact hlater
      · simp only [Lexer.reading, List.length_cons, List.take_succ_cons]
        exact (undecidedFrom_cons hgoes).mpr hundecided
  · rintro ⟨hfirst, hlater⟩ mid tail hsplit hundecided hskip
    cases mid with
    | nil =>
        obtain rfl : c :: rest = tail := hsplit
        rw [List.append_nil]
        exact hfirst hskip
    | cons a mid =>
        obtain ⟨rfl, rfl⟩ := List.cons.inj hsplit
        simp only [Lexer.reading, List.length_cons, List.take_succ_cons] at hundecided
        have hgoes : ¬ (ended = true ∧ Scanner.Significant
            (c, (l.step c (mid ++ tail).head? (mid ++ tail).tail.head?).1)) := by
          rintro ⟨rfl, hsignificant⟩
          exact hundecided _ List.mem_cons_self hsignificant
        have hrest := hlater hgoes mid tail rfl ((undecidedFrom_cons hgoes).mp hundecided) hskip
        rw [List.append_assoc] at hrest
        exact hrest

/-- The two read alike up to where the scanner returns exactly if it meets no snag before. -/
theorem Alike.visited_iff (h : Alike past rest s l) :
    s.visited rest <+: l.reading rest ↔ NoSnagFrom past s.ended l rest := by
  induction rest generalizing past s l with
  | nil =>
      refine ⟨fun _ mid tail hsplit _ _ hsnag => ?_, fun _ => List.nil_prefix⟩
      obtain ⟨rfl, rfl⟩ := List.append_eq_nil_iff.mp hsplit.symm
      obtain ⟨x, hx, -⟩ := hsnag.exists_ne_tick
      cases hx
  | cons c rest ih =>
      by_cases hsnag : l.skip = none ∧ Snag past l.state (c :: rest)
      · refine ⟨fun hprefix => absurd hprefix (h.diverges hsnag.1 hsnag.2), fun hnone => ?_⟩
        exact absurd hsnag.2 ((noSnagFrom_cons.mp hnone).1 hsnag.1)
      have hfirst : l.skip = none → ¬ Snag past l.state (c :: rest) :=
        fun hskip hs => hsnag ⟨hskip, hs⟩
      by_cases htick : l.skip = none ∧ l.state = .backtick ∧ escaped past = true ∧ c = 96
      · -- only backquotes are left, which both read as part of the identifier
        obtain ⟨hskip, hbacktick, hescaped, rfl⟩ := htick
        rcases ticks_or rest with ⟨n, hall⟩ | ⟨n, a, post, ha, hsplit⟩
        · have hs : s.skip = true := by simpa [hbacktick, hescaped] using h.reads hskip
          rw [hall]
          refine ⟨fun _ mid tail hmid _ _ hs => ?_, fun _ => ?_⟩
          · obtain ⟨x, hx, hne⟩ := hs.exists_ne_tick
            have hmem : x ∈ List.replicate (n + 1) (96 : UInt8) := by
              rw [hmid]
              exact List.mem_append_right _ hx
            exact hne (List.eq_of_mem_replicate hmem)
          · exact Crossed.agrees ⟨h.state.trans hbacktick, hbacktick, Or.inl ⟨hs, hskip⟩⟩ n
        · refine absurd ?_ (hfirst hskip)
          rw [hbacktick, hsplit]
          exact .escapedTick hescaped ha
      obtain ⟨hclass, halike⟩ :
          s.classOf c rest.head? rest.tail.head? = (l.step c rest.head? rest.tail.head?).1 ∧
            Alike (past ++ [c]) rest (s.advance c rest.head? rest.tail.head?)
              (l.step c rest.head? rest.tail.head?).2 := by
        cases hskip : l.skip with
        | some token => exact h.turn_skip hskip
        | none =>
            by_cases hcode : l.state = .code
            · exact h.turn_code hskip hcode (hcode ▸ hfirst hskip)
            · exact h.turn_inside hskip hcode fun ht => htick ⟨hskip, ht⟩
      rw [Scanner.visited, Scanner.step_eq, Lexer.reading, noSnagFrom_cons, ← hclass]
      generalize s.classOf c rest.head? rest.tail.head? = token
      generalize s.advance c rest.head? rest.tail.head? = t at halike ⊢
      generalize (l.step c rest.head? rest.tail.head?).2 = l' at halike ⊢
      by_cases hreturns : s.ended = true ∧ Scanner.Significant (c, token)
      · rw [if_pos hreturns.2, if_pos hreturns.1]
        exact ⟨fun _ => ⟨hfirst, fun hgoes => absurd hreturns hgoes⟩, fun _ => by simp⟩
      by_cases hsignificant : Scanner.Significant (c, token)
      · have hopen : s.ended = false := by simpa [hsignificant] using hreturns
        have hplain : (c, token) ≠ Scanner.terminator :=
          fun heq => hsignificant.2.2 (congrArg Prod.fst heq)
        have hnext : Scanner.visited ⟨t.state, t.skip, false, true⟩ rest <+: l'.reading rest ↔
            NoSnagFrom (past ++ [c]) false l' rest := ih (alike_flags halike false true)
        have hended : (s.ended || decide ((c, token) = Scanner.terminator)) = false := by
          simp [hopen, hplain]
        rw [if_pos hsignificant, if_neg (by simp [hopen]), List.cons_prefix_cons, hnext, hended]
        exact ⟨fun hr => ⟨hfirst, fun _ => hr.2⟩, fun hr => ⟨rfl, hr.2 hreturns⟩⟩
      · have hnext := ih (alike_flags halike (s.ended || (c, token) = Scanner.terminator) s.sawCode)
        rw [if_neg hsignificant, List.cons_prefix_cons, hnext]
        exact ⟨fun hr => ⟨hfirst, fun _ => hr.2⟩, fun hr => ⟨rfl, hr.2 hreturns⟩⟩

end Agreement

/-! ## The theorem -/

/-- The scanner reads the text, up to where it returns, as the server does. -/
def ReadsAsServer (sql : Bytes) : Prop := Scanner.visited {} sql <+: Lexer.reading {} sql

/-- For the server, nothing but white space and terminators is code behind the first terminator. -/
def OneServerStatement (sql : Bytes) : Prop := Undecided (Lexer.reading {} sql)

theorem alike_start (sql : Bytes) : Alike [] sql {} {} := ⟨rfl, rfl, nofun, fun _ => rfl⟩

theorem readsAsServer_iff (sql : Bytes) : ReadsAsServer sql ↔ NoSnag sql := by
  unfold ReadsAsServer
  rw [(alike_start sql).visited_iff]
  exact Iff.rfl

/-- The scanner gets to the end of a text that it accepts. -/
theorem visited_of_scan {s : Scanner} {sql : Bytes} (h : s.scan sql = true) :
    s.visited sql = s.reading sql := by
  induction sql generalizing s with
  | nil => rfl
  | cons c rest ih =>
      rw [Scanner.scan, Scanner.step_eq] at h
      rw [Scanner.visited, Scanner.step_eq, Scanner.reading]
      split_ifs at h ⊢
      · dsimp only at h ⊢
        rw [ih h, Scanner.reading_flags]
      · dsimp only at h ⊢
        rw [ih h, Scanner.reading_flags]

theorem length_reading (s : Scanner) (l : Lexer) (sql : Bytes) :
    (s.reading sql).length = (l.reading sql).length := by
  induction sql generalizing s l with
  | nil => rfl
  | cons c rest ih => exact congrArg (· + 1) (ih _ _)

/-- What the scanner accepts is one statement for the server, if the two read the text alike. -/
theorem oneServerStatement {sql : Bytes} (hreads : ReadsAsServer sql)
    (haccepted : isSingleServerStatement sql = true) : OneServerStatement sql := by
  have hvisited : Scanner.visited {} sql = Scanner.reading {} sql := visited_of_scan haccepted
  have hsame : Scanner.reading {} sql = Lexer.reading {} sql := by
    unfold ReadsAsServer at hreads
    rw [hvisited] at hreads
    exact hreads.eq_of_length (length_reading _ _ _)
  unfold OneServerStatement Undecided
  rw [← hsame]
  exact noCodeFollows_iff.mp (isSingleServerStatement_iff.mp haccepted).2.2

/-- The scanner and the server.  Up to where it returns, the scanner classifies the positions of a
text as the server does, and what it accepts is one statement for the server, exactly if the text has
no snag before. -/
theorem scanner_readsAsServer_iff (sql : Bytes) :
    (ReadsAsServer sql ∧ (isSingleServerStatement sql = true → OneServerStatement sql)) ↔
      NoSnag sql := by
  rw [← readsAsServer_iff]
  exact ⟨fun h => h.1, fun h => ⟨h, oneServerStatement h⟩⟩

/-- A backslash in a backquoted identifier: for the server the identifier ends behind it and a second
statement follows, for the scanner it goes on to the last backquote. -/
theorem backslashInIdentifier_accepted :
    isSingleServerStatement (lit "SELECT `\\`; DROP TABLE goods; -- `") = true ∧
      ¬ ReadsAsServer (lit "SELECT `\\`; DROP TABLE goods; -- `") ∧
      ¬ OneServerStatement (lit "SELECT `\\`; DROP TABLE goods; -- `") := by
  refine ⟨by decide, ?_, ?_⟩
  · unfold ReadsAsServer
    decide
  · intro hone
    have hdrop : (68, ScanState.code) ∈ Scanner.behindTerminator
        (Lexer.reading {} (lit "SELECT `\\`; DROP TABLE goods; -- `")) := by decide
    exact hone _ hdrop (by decide)

end Warehouse.Mysql.Migration
