/-
# Warehouse.Backend.GoodsSearch — what a search for goods returns

`listGoods` hands the text that was searched for to a `LIKE`, in lower case and between two
wildcards, but otherwise as it came.  So the search is one for a pattern: `%` and `_` in the text
stand for other text, and a backslash is not searched for.  A text without the three is searched for
literally.
-/
import Warehouse.Backend.LegacyTables
import Warehouse.Backend.Service
import Warehouse.Interaction.Enumeration
import Warehouse.Mysql.LikePattern

namespace Warehouse.Backend

open Warehouse.Interaction Warehouse.Mysql Warehouse.Bootstrap

/-! ## Texts of the server -/

/-- A byte of UTF-8 that continues a character. -/
def continues (c : UInt8) : Bool := 128 ≤ c && c < 192

/-- The characters of a text in UTF-8. -/
def characters : Bytes → List Bytes
  | [] => []
  | c :: rest => match characters rest with
    | (d :: more) :: others =>
        if continues d then (c :: d :: more) :: others else [c] :: (d :: more) :: others
    | others => [c] :: others

/-- `LOWER` of one character; ASCII letters are lower-cased as everywhere. -/
structure Casing where
  lower : Bytes → Bytes
  lower_ascii : ∀ c : UInt8, c < 128 → lower [c] = [tolower c]
  lower_lower : ∀ a, lower (lower a) = lower a

namespace Casing

variable (casing : Casing)

/-- `LOWER` -/
def lowered (text : Bytes) : List Bytes := (characters text).map casing.lower

/-- Characters are compared without regard to case. -/
def same (a b : Bytes) : Bool := casing.lower a == casing.lower b

/-- The wildcards of `LIKE`, and its default escape character. -/
def wildcards : Wildcards Bytes := ⟨[37], [95], [92], by decide⟩

/-- `LOWER(name) LIKE CONCAT('%',?,'%')` -/
def like (filter name : Bytes) : Bool :=
  wildcards.contains casing.same (characters filter) (casing.lowered name)

/-- The dialect of a server with that casing. -/
def dialect (collation : Collation) : Dialect := ⟨collation, casing.like⟩

/-- The name of the goods contains the text, both in lower case. -/
def Contains (text : Bytes) (row : GoodsRow) : Prop :=
  casing.lowered text <:+: casing.lowered row.name

instance (text : Bytes) (row : GoodsRow) : Decidable (casing.Contains text row) :=
  inferInstanceAs (Decidable (_ <:+: _))

end Casing

/-- The goods have that status, if one is asked for. -/
def Dialect.hasStatus (dialect : Dialect) (status : Bytes) (row : GoodsRow) : Prop :=
  status ≠ [] → dialect.collation row.status = dialect.collation status

/-- The text has none of the characters that mean something in a pattern. -/
def PlainText (text : Bytes) : Prop := ∀ c ∈ text, c ≠ 37 ∧ c ≠ 95 ∧ c ≠ 92

instance (text : Bytes) : Decidable (PlainText text) := List.decidableBAll _ text

section Ascii

variable {casing : Casing} {collation : Collation} {text : Bytes} {row : GoodsRow} {c : UInt8}

theorem ascii_of_all (h : text.all (· < 128) = true) : ∀ c ∈ text, c < 128 := by
  simpa using h

theorem tolower_ascii (h : c < 128) : tolower c < 128 := by
  unfold tolower
  split <;> grind

theorem tolower_tolower (c : UInt8) : tolower (tolower c) = tolower c := by
  unfold tolower
  split <;> grind

/-- Lower-casing neither makes nor removes a character that is no letter. -/
theorem tolower_eq_iff {d : UInt8} (h : d < 65 ∨ (90 < d ∧ d < 97)) :
    tolower c = d ↔ c = d := by
  unfold tolower
  split <;> grind

theorem characters_ascii (h : ∀ c ∈ text, c < 128) : characters text = text.map fun c => [c] := by
  induction text with
  | nil => rfl
  | cons c rest ih =>
      have hrest := ih fun d hd => h d (List.mem_cons_of_mem c hd)
      cases rest with
      | nil => rfl
      | cons d rest =>
          have hd : continues d = false := by
            have := h d (by simp)
            unfold continues
            grind
          rw [characters, hrest]
          simp [hd]

-- outside ASCII a character has more than one byte
example : characters (lit "a显") = [lit "a", lit "显"] := by decide

theorem lowered_ascii (h : ∀ c ∈ text, c < 128) :
    casing.lowered text = text.map fun c => [tolower c] := by
  rw [Casing.lowered, characters_ascii h, List.map_map]
  exact List.map_congr_left fun c hc => casing.lower_ascii c (h c hc)

/-- What the service makes of the text is the text in lower case. -/
theorem characters_lowercaseAscii (h : ∀ c ∈ text, c < 128) :
    characters (lowercaseAscii text) = casing.lowered text := by
  have hlower : ∀ c ∈ lowercaseAscii text, c < 128 := by
    intro c hc
    obtain ⟨d, hd, rfl⟩ := List.mem_map.mp hc
    exact tolower_ascii (h d hd)
  rw [characters_ascii hlower, lowered_ascii h, lowercaseAscii, List.map_map]
  rfl

theorem lower_lowered {a : Bytes} (h : a ∈ casing.lowered text) : casing.lower a = a := by
  obtain ⟨b, -, rfl⟩ := List.mem_map.mp h
  exact casing.lower_lower b

/-- Characters in lower case are the same only if they are equal. -/
theorem eq_of_forall₂_same {l l' : List Bytes} (hl : ∀ a ∈ l, casing.lower a = a)
    (hl' : ∀ a ∈ l', casing.lower a = a)
    (h : List.Forall₂ (fun a c => casing.same a c = true) l l') : l = l' := by
  induction h with
  | nil => rfl
  | cons hsame _ ih =>
      have hhead := eq_of_beq hsame
      rw [hl _ List.mem_cons_self, hl' _ List.mem_cons_self] at hhead
      rw [hhead, ih (fun a ha => hl a (List.mem_cons_of_mem _ ha))
        fun a ha => hl' a (List.mem_cons_of_mem _ ha)]

theorem same_self (a : Bytes) : casing.same a a = true := beq_self_eq_true _

/-- Single ASCII characters are the characters of the text that they make up. -/
theorem characters_flatten {l : List Bytes} (h : ∀ a ∈ l, ∃ c : UInt8, c < 128 ∧ a = [c]) :
    characters l.flatten = l := by
  have hbytes : l = l.flatten.map (fun c => [c]) ∧ ∀ c ∈ l.flatten, c < 128 := by
    induction l with
    | nil => simp
    | cons a l ih =>
        obtain ⟨c, hc, rfl⟩ := h a List.mem_cons_self
        obtain ⟨hl, hascii⟩ := ih fun a ha => h a (List.mem_cons_of_mem _ ha)
        refine ⟨congrArg ([c] :: ·) hl, ?_⟩
        intro d hd
        rcases List.mem_cons.mp hd with rfl | hd
        · exact hc
        · exact hascii d hd
  rw [characters_ascii hbytes.2, ← hbytes.1]

theorem plain_iff (h : ∀ c ∈ text, c < 128) :
    (∀ a ∈ casing.lowered text, Casing.wildcards.Plain a) ↔ PlainText text := by
  have hc : ∀ c : UInt8, Casing.wildcards.Plain [tolower c] ↔ c ≠ 37 ∧ c ≠ 95 ∧ c ≠ 92 := by
    intro c
    have hany : tolower c = 37 ↔ c = 37 := tolower_eq_iff (by decide)
    have hone : tolower c = 95 ↔ c = 95 := tolower_eq_iff (by decide)
    have hescape : tolower c = 92 ↔ c = 92 := tolower_eq_iff (by decide)
    simp [Wildcards.Plain, Casing.wildcards, hany, hone, hescape]
  rw [lowered_ascii h, List.forall_mem_map]
  exact forall₂_congr fun c _ => hc c

/-- A plain text is searched for literally. -/
theorem like_plain (h : ∀ c ∈ text, c < 128) (hplain : PlainText text) :
    casing.like (lowercaseAscii text) row.name = true ↔ casing.Contains text row := by
  rw [Casing.like, characters_lowercaseAscii h, Wildcards.contains_plain ((plain_iff h).mpr hplain)]
  constructor
  · rintro ⟨found, hfound, hsame⟩
    rw [← eq_of_forall₂_same (fun a => lower_lowered)
      (fun a ha => lower_lowered (hfound.subset ha)) hsame] at hfound
    exact hfound
  · intro hcontains
    exact ⟨_, hcontains, List.forall₂_same.mpr fun a _ => same_self a⟩

/-- Any other text matches a name that does not contain it. -/
theorem like_other (h : ∀ c ∈ text, c < 128) (hplain : ¬ PlainText text) :
    ∃ name, casing.like (lowercaseAscii text) name = true ∧
      ¬ casing.lowered text <:+: casing.lowered name := by
  let name := sample [97] (Casing.wildcards.tokens (casing.lowered text ++ [Casing.wildcards.any]))
  have hsingle : ∀ c : UInt8, c < 128 → tolower c = c →
      (∃ d : UInt8, d < 128 ∧ [c] = [d]) ∧ casing.lower [c] = [c] := by
    intro c hc hlower
    exact ⟨⟨c, hc, rfl⟩, by rw [casing.lower_ascii c hc, hlower]⟩
  have hname : ∀ a ∈ name, (∃ c : UInt8, c < 128 ∧ a = [c]) ∧ casing.lower a = a := by
    intro a ha
    rcases Wildcards.mem_sample_tokens ha with rfl | ha
    · exact hsingle 97 (by decide) (by decide)
    rcases List.mem_append.mp ha with ha | ha
    · rw [lowered_ascii h] at ha
      obtain ⟨c, hc, rfl⟩ := List.mem_map.mp ha
      exact hsingle _ (tolower_ascii (h c hc)) (tolower_tolower c)
    · obtain rfl := List.mem_singleton.mp ha
      exact hsingle 37 (by decide) (by decide)
  have hlowered : casing.lowered name.flatten = name := by
    rw [Casing.lowered, characters_flatten fun a ha => (hname a ha).1]
    exact (List.map_congr_left (g := id) fun a ha => (hname a ha).2).trans (List.map_id name)
  have hother : Casing.wildcards.contains casing.same (casing.lowered text) name = true ∧
      ¬ casing.lowered text <:+: name :=
    Wildcards.contains_other same_self (by decide) (mt (plain_iff h).mp hplain)
  refine ⟨name.flatten, ?_, ?_⟩
  · rw [Casing.like, characters_lowercaseAscii h, hlowered]
    exact hother.1
  · rw [hlowered]
    exact hother.2

end Ascii

/-! ## What a search returns -/

/-- The four shapes of the statement have a parameter for each placeholder. -/
theorem placeholders_listGoods (filter : GoodsFilter) :
    (SqlStatement.parameters (LegacyStatement.listGoods filter)).map List.length =
      some ((SqlStatement.sql (LegacyStatement.listGoods filter)).count 63) := by
  have hname : (lit " AND LOWER(name) LIKE CONCAT('%',?,'%')").count 63 = 1 := by decide
  have hstatus : (lit " AND status=?").count 63 = 1 := by decide
  have hcolumns : selectGoodsColumns.count 63 = 0 := by decide
  have hends : (lit " WHERE 1=1").count 63 = 0 ∧ (lit " ORDER BY id").count 63 = 0 := by decide
  simp only [SqlStatement.sql, SqlStatement.parameters, Option.map_some, List.length_append,
    List.count_append, hcolumns, hends.1, hends.2]
  split <;> split <;> simp [hname, hstatus]

/-- The server answers every statement from these tables, or with an error. -/
def answersFrom (dialect : Dialect) (rows : LegacyRows) :
    Environment (ExecutorCall LegacyStatement) ExecutorCall.Answer Unit
  | .execute statement, _, answer, _ => ∀ response, answer = .ok response →
      ∃ counter counter' writes locks,
        legacyMeaning dialect statement rows counter response writes locks counter'
  | _, _, _, _ => True

/-- The views are those of the wanted goods, each once, by ascending number, and with every field as
it is stored. -/
def Lists (wanted : GoodsRow → Prop) (rows : LegacyRows) (views : List GoodsView) : Prop :=
  (views.Pairwise fun v w => v.numericId < w.numericId) ∧
    ∀ view, view ∈ views ↔
      ∃ id row, rows.goods id = some row ∧ wanted row ∧ view = toView (row.record id)

/-- Whatever tables there are, and whoever asks: a search that succeeds lists the wanted goods. -/
def Searches (dialect : Dialect) (name status : Bytes) (wanted : GoodsRow → Prop) : Prop :=
  ∀ (rows : LegacyRows) (host : Host) (lease : Except SqlError Unit) (token : Bytes)
    (s : ServiceState),
    Program.wp (answersFrom dialect rows) (fun _ _ _ _ => True)
      (fun result _ => ∀ views, result.1 = .ok views → Lists wanted rows views)
      (serve host lease (.listGoods ⟨token, name, status⟩) s) ()

section Listing

variable {dialect : Dialect} {rows : LegacyRows} {ids : List ℤ} {records : List GoodsRecord}
  {wanted : GoodsRow → Prop} {filter : GoodsFilter} {response : SqlResponse}
  {counter counter' : ℕ} {writes : LegacyRows} {locks : LegacyKey → Prop}

/-- A row that can be read is read as it is stored. -/
theorem parseGoodsRecord_eq {id : ℤ} {row : GoodsRow} {record : GoodsRecord}
    (h : parseGoodsRecord (row.cells id) = .ok record) : record = row.record id := by
  cases hid : parseInt64 (some (toDecimalInt id)) with
  | none =>
      simp only [GoodsRow.cells, parseGoodsRecord, hid] at h
      cases h
  | some read =>
      simp only [GoodsRow.cells, parseGoodsRecord, hid] at h
      obtain rfl := Except.ok.inj h
      rw [show read = id from eq_of_parseSigned hid]
      rfl

theorem mapM_parseGoodsRecord
    (h : (ids.filterMap fun id => (rows.goods id).map (GoodsRow.cells id)).mapM parseGoodsRecord =
      .ok records) :
    records = ids.filterMap fun id => (rows.goods id).map (GoodsRow.record id) := by
  induction ids generalizing records with
  | nil => exact (Except.ok.inj h).symm
  | cons id ids ih =>
      cases hrow : rows.goods id with
      | none =>
          simp only [List.filterMap_cons, hrow, Option.map_none] at h ⊢
          exact ih h
      | some row =>
          simp only [List.filterMap_cons, hrow, Option.map_some, List.mapM_cons] at h ⊢
          obtain ⟨record, hrecord, h⟩ := ok_of_bind h
          obtain ⟨others, hothers, h⟩ := ok_of_bind h
          obtain rfl := Except.ok.inj h
          rw [parseGoodsRecord_eq hrecord, ih hothers]

/-- The answer to the statement, read by the repository and shown by the service. -/
theorem lists_of_meaning
    (hmeaning : legacyMeaning dialect (.listGoods filter) rows counter response writes locks
      counter')
    (hread : response.rows.mapM parseGoodsRecord = .ok records) :
    Lists (dialect.selects filter) rows (records.map toView) := by
  obtain ⟨-, ids, hascending, hids, hrows⟩ := hmeaning
  rw [hrows] at hread
  rw [mapM_parseGoodsRecord hread]
  constructor
  · rw [List.pairwise_map]
    refine hascending.filterMap _ ?_
    intro i j hij v hv w hw
    obtain ⟨row, -, rfl⟩ := Option.map_eq_some_iff.mp hv
    obtain ⟨row', -, rfl⟩ := Option.map_eq_some_iff.mp hw
    exact hij
  · intro view
    constructor
    · intro hview
      obtain ⟨record, hrecord, rfl⟩ := List.mem_map.mp hview
      obtain ⟨id, hid, hsome⟩ := List.mem_filterMap.mp hrecord
      obtain ⟨row, hrow, rfl⟩ := Option.map_eq_some_iff.mp hsome
      obtain ⟨row', hrow', hselected⟩ := (hids id).mp hid
      obtain rfl := Option.some.inj (hrow'.symm.trans hrow)
      exact ⟨id, _, hrow, hselected, rfl⟩
    · rintro ⟨id, row, hrow, hselected, rfl⟩
      refine List.mem_map.mpr ⟨row.record id, ?_, rfl⟩
      refine List.mem_filterMap.mpr ⟨id, (hids id).mpr ⟨row, hrow, hselected⟩, ?_⟩
      rw [hrow]
      rfl

end Listing

/-! ## The request -/

section Request

open Program

variable {dialect : Dialect} {name status : Bytes} {wanted : GoodsRow → Prop}

/-- Whatever the executor answers, a property of all results holds of this one. -/
theorem wp_always {Op α σ : Type} {Ans : Op → Type} {E : Environment Op Ans σ}
    {Q : α → σ → Prop} {p : Program Op Ans α} {s : σ} (h : ∀ a s, Q a s) :
    p.wp E (fun _ _ _ _ => True) Q s := wp_post (wp_trivial E p s) fun a s _ => h a s

/-- A search lists what its statement selects. -/
theorem listGoods_searches :
    Searches dialect name status (dialect.selects ⟨lowercaseAscii name, status⟩) := by
  intro rows host lease token s
  show wp _ _ _ ((authenticated token _).interpret (performService host lease) s) ()
  rw [interpret_authenticated]
  cases s.sessions token with
  | none => exact nofun
  | some principal =>
      refine serves_withUnit (wp_always ?_)
      intro begun _
      cases begun with
      | error f => exact nofun
      | ok t =>
          refine serves_repository ?_
          rintro answer _ hanswer
          refine ⟨trivial, ?_⟩
          cases answer with
          | error e => exact serves_abandon (wp_always fun _ _ => wp_always fun _ _ => nofun)
          | ok response =>
              obtain ⟨counter, counter', writes, locks, hmeaning⟩ := hanswer response rfl
              show wp _ _ _ (.ret (response.rows.mapM parseGoodsRecord)) _
              cases hread : response.rows.mapM parseGoodsRecord with
              | error f => exact serves_abandon (wp_always fun _ _ => wp_always fun _ _ => nofun)
              | ok records =>
                  refine serves_conclude (wp_always ?_)
                  rintro ⟨committed, t⟩ _
                  cases committed with
                  | error f => exact wp_always fun _ _ => nofun
                  | ok _ =>
                      refine (wp_ret _ _).mpr (wp_always ?_)
                      intro _ _ views hviews
                      obtain rfl := Except.ok.inj hviews
                      exact lists_of_meaning hmeaning hread

/-- Goods that are alone in their table. -/
theorem goods_alone {id other : ℤ} {row : GoodsRow} :
    LegacyRows.goods (writeGoods id row) other = if other = id then some row else none := by
  by_cases hid : other = id
  · simp [LegacyRows.goods, writeGoods, hid]
  · simp [LegacyRows.goods, writeGoods, hid]

/-- A host, for requests that ask nothing of it. -/
def idleHost : Host := ⟨fun _ _ => false, fun _ => false, fun _ _ => .ok [], fun _ => []⟩

/-- A request that is answered: what the statement selects is listed, so it has to be wanted. -/
theorem wanted_of_searches {row : GoodsRow} (h : Searches dialect name status wanted)
    (hselected : dialect.selects ⟨lowercaseAscii name, status⟩ row) : wanted row := by
  let rows : LegacyRows := writeGoods 1 row
  let s : ServiceState := { sessions := fun _ => some ⟨lit "alice", lit "viewer"⟩ }
  have hmeaning : legacyMeaning dialect (.listGoods ⟨lowercaseAscii name, status⟩) rows 0
      { rows := [row.cells 1] } (fun _ => none) (fun _ => False) 0 := by
    refine ⟨⟨rfl, rfl, rfl⟩, [1], List.pairwise_singleton _ _, ?_, ?_⟩
    · intro id
      rw [List.mem_singleton, goods_alone]
      constructor
      · rintro rfl
        exact ⟨row, if_pos rfl, hselected⟩
      · rintro ⟨other, hother, -⟩
        by_contra hid
        rw [if_neg hid] at hother
        cases hother
    · rw [List.filterMap_cons, goods_alone, if_pos rfl]
      rfl
  have hread : List.mapM parseGoodsRecord [row.cells 1] = .ok [row.record 1] := by
    have hone : parseGoodsRecord (row.cells (1 : ℕ)) = .ok (row.record (1 : ℕ)) :=
      parseGoodsRecord_cells (by decide) row
    exact congrArg (· >>= fun record => pure [record]) hone
  -- the isolation level and the start of the transaction, then the statement, then the commit
  have hstart := ((h rows idleHost (.ok ()) [] s (.ok {}) () trivial).2 (.ok {}) () trivial).2
  have hlisted := (hstart (.ok { rows := [row.cells 1] }) () fun response hresponse =>
    Except.ok.inj hresponse ▸ ⟨_, _, _, _, hmeaning⟩).2
  simp only [Program.bind, hread] at hlisted
  have hlists := (hlisted (.ok {}) () trivial).2 _ rfl
  obtain ⟨id, found, hfound, hwanted, -⟩ := (hlists.2 _).mp List.mem_cons_self
  rw [goods_alone] at hfound
  split at hfound
  · exact Option.some.inj hfound ▸ hwanted
  · cases hfound

end Request

/-! ## What is found -/

/-- Goods whose name matches the text as a pattern, if there is a text, and whose status is the one
that is asked for. -/
def Matching (casing : Casing) (collation : Collation) (name status : Bytes) (row : GoodsRow) :
    Prop :=
  (name ≠ [] → casing.like (lowercaseAscii name) row.name = true) ∧
    (casing.dialect collation).hasStatus status row

/-- Goods whose name contains the text, and whose status is the one that is asked for. -/
def Containing (casing : Casing) (collation : Collation) (name status : Bytes) (row : GoodsRow) :
    Prop :=
  casing.Contains name row ∧ (casing.dialect collation).hasStatus status row

section Search

variable {casing : Casing} {collation : Collation} {name status : Bytes} {row : GoodsRow}

theorem selects_iff : (casing.dialect collation).selects ⟨lowercaseAscii name, status⟩ row ↔
    Matching casing collation name status row := by
  have hempty : lowercaseAscii name ≠ [] ↔ name ≠ [] := by simp [lowercaseAscii]
  exact and_congr_left fun _ => imp_congr_left hempty

theorem matching_iff (h : ∀ c ∈ name, c < 128) (hplain : PlainText name) :
    Matching casing collation name status row ↔ Containing casing collation name status row := by
  refine and_congr_left fun _ => ?_
  by_cases hempty : name = []
  · subst hempty
    exact iff_of_true (fun hne => absurd rfl hne) List.nil_infix
  · rw [← like_plain h hplain]
    exact forall_prop_of_true hempty

/-- A search succeeds with exactly the goods that match the text as a pattern, whatever the tables,
the text and the status; and that is the search for goods that contain the text exactly if the text
is plain. -/
theorem listGoods_exact (casing : Casing) (collation : Collation) (name status : Bytes)
    (hascii : ∀ c ∈ name, c < 128) :
    Searches (casing.dialect collation) name status (Matching casing collation name status) ∧
      (Searches (casing.dialect collation) name status (Containing casing collation name status) ↔
        PlainText name) := by
  have hmatching : (casing.dialect collation).selects ⟨lowercaseAscii name, status⟩ =
      Matching casing collation name status := funext fun row => propext selects_iff
  have hsearches : Searches (casing.dialect collation) name status
      (Matching casing collation name status) := hmatching ▸ listGoods_searches
  refine ⟨hsearches, ?_, ?_⟩
  · intro hcontaining
    by_contra hplain
    have hother : ∃ found, casing.like (lowercaseAscii name) found = true ∧
        ¬ casing.lowered name <:+: casing.lowered found := like_other hascii hplain
    obtain ⟨found, hlike, hmissing⟩ := hother
    -- goods of that name, in the status that is asked for
    let row : GoodsRow := ⟨found, lit "A-01", status, lit "2026-07-19 10:00:00", none, lit "alice"⟩
    have hselected : Matching casing collation name status row := ⟨fun _ => hlike, fun _ => rfl⟩
    exact hmissing (wanted_of_searches hcontaining (selects_iff.mpr hselected)).1
  · intro hplain
    have hcontaining : Matching casing collation name status =
        Containing casing collation name status :=
      funext fun row => propext (matching_iff hascii hplain)
    exact hcontaining ▸ hsearches

end Search

/-- Only ASCII letters have a case. -/
def asciiCasing : Casing where
  lower a := a.map tolower
  lower_ascii _ _ := rfl
  lower_lower a := by
    rw [List.map_map]
    exact List.map_congr_left fun c _ => tolower_tolower c

/-- A search for stored bolts, in plain text. -/
theorem listGoods_exact_bolt :
    Searches (asciiCasing.dialect id) (lit "Bolt") (lit "stored")
      (Containing asciiCasing id (lit "Bolt") (lit "stored")) :=
  (listGoods_exact asciiCasing id (lit "Bolt") (lit "stored") (ascii_of_all (by decide))).2.mpr
    (by decide)

/-- A search for `M8_` lists the bolt `M8x40`. -/
theorem listGoods_wildcard :
    ¬ Searches (asciiCasing.dialect id) (lit "M8_") []
      (Containing asciiCasing id (lit "M8_") []) := by
  intro hsearches
  have hselected : Matching asciiCasing id (lit "M8_") []
      ⟨lit "M8x40", lit "A-01", lit "stored", lit "2026-07-19 10:00:00", none, lit "alice"⟩ :=
    ⟨fun _ => by decide, fun h => absurd rfl h⟩
  exact absurd (wanted_of_searches hsearches (selects_iff.mpr hselected)).1 (by decide)

end Warehouse.Backend
