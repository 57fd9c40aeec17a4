import Stencil.Proofs.Document.Grammar
import Stencil.Proofs.Expr.Inclusion
import Stencil.Proofs.Printing.Expression

/-!
# Directives as they are written

What is written between the braces of a directive keeps the directive whole (`Neat`) and says which
one it is. Only the interpolation of an expression can be taken for something else: if the
expression leads with a keyword, nothing can read the directive (`piece?_eq_none_of_keyword`). The
same goes for a directive that a brace of the text before it has slipped into
(`piece?_eq_none_of_brace`).
-/

namespace Stencil

open Text (Literal.write)

/-! ### Neat interiors

Two things could go wrong between the braces whatever the directive says: its end is found too early
or not at all, or a carriage return in it is lost before the reader sees it. `Neat` excludes both,
and it is kept when texts are put behind one another, so it is proved of a written expression from
its words, its literals and a few separators. -/

/-- **What a directive can hold**: closing braces are found behind it and not in it, and it has one
kind of line ending only, so that it is the same when line endings have been made alike. -/
structure Neat (cs : List Char) : Prop where
  /-- closing braces behind it are found -/
  closed : Closed cs
  /-- no carriage return -/
  noReturn : '\r' ∉ cs

theorem neat_nil : Neat [] := ⟨closed_nil, List.not_mem_nil⟩

theorem Neat.append {cs ds : List Char} (hc : Neat cs) (hd : Neat ds) : Neat (cs ++ ds) :=
  ⟨hc.closed.append hd.closed, by simp [hc.noReturn, hd.noReturn]⟩

/-- **Characters that mean nothing to directives**: no quote, which would begin a literal, no
closing brace and no carriage return. Every other character may stand anywhere in an interior. -/
def isInert (c : Char) : Bool :=
  !(Text.Literal.isQuote c || c == '}' || c == '\r')

theorem isInert_iff {c : Char} :
    isInert c = true ↔ Text.Literal.isQuote c = false ∧ c ≠ '}' ∧ c ≠ '\r' := by
  simp [isInert, and_assoc]

/-- Characters that mean nothing to directives are neat. -/
theorem neat_of_all {cs : List Char} (h : cs.all isInert = true) : Neat cs := by
  have hinert : ∀ c ∈ cs, Text.Literal.isQuote c = false ∧ c ≠ '}' ∧ c ≠ '\r' := by
    intro c hc
    exact isInert_iff.1 (List.all_eq_true.1 h c hc)
  constructor
  · apply closed_of_forall
    intro c hc
    obtain ⟨hquote, hbrace, -⟩ := hinert c hc
    exact ⟨hquote, hbrace⟩
  · intro hreturn
    exact (hinert '\r' hreturn).2.2 rfl

/-- ASCII letters and digits mean nothing to directives. -/
theorem isInert_of_isAlphanumeric {c : Char} (h : isAlphanumeric c = true) : isInert c = true := by
  have hdouble : c ≠ '"' := ne_of_isAlphanumeric h rfl
  have hsingle : c ≠ '\'' := ne_of_isAlphanumeric h rfl
  exact isInert_iff.2 ⟨by simp [Text.Literal.isQuote, hdouble, hsingle],
    ne_of_isAlphanumeric h rfl, ne_of_isAlphanumeric h rfl⟩

/-- Identifiers are neat. -/
theorem neat_of_isIdentifier {cs : List Char} (h : isIdentifier cs = true) : Neat cs := by
  apply neat_of_all
  rw [List.all_eq_true]
  intro c hc
  exact isInert_of_isAlphanumeric (isAlphanumeric_of_mem h hc)

/-- A written literal is neat. -/
theorem neat_write (cs : List Char) : Neat (Literal.write cs) := by
  refine ⟨closed_write cs, ?_⟩
  intro hreturn
  cases Text.Literal.isControl_eq_false_of_mem_write hreturn

/-- Neat texts with a neat separator are neat. -/
theorem neat_flatten_intersperse {sep : List Char} {texts : List (List Char)} (hsep : Neat sep)
    (h : ∀ text ∈ texts, Neat text) : Neat (List.intersperse sep texts).flatten := by
  cases texts with
  | nil => exact neat_nil
  | cons first others =>
    obtain ⟨hfirst, hothers⟩ := List.forall_mem_cons.1 h
    rw [flatten_intersperse_cons]
    refine hfirst.append ?_
    induction others with
    | nil => exact neat_nil
    | cons other others ih =>
      obtain ⟨hother, hothers⟩ := List.forall_mem_cons.1 hothers
      exact (hsep.append hother).append (ih (List.forall_mem_cons.2 ⟨hfirst, hothers⟩) hothers)

theorem neat_dot : Neat ['.'] := neat_of_all rfl

theorem neat_bar : Neat [' ', '|', ' '] := neat_of_all rfl

theorem neat_separator : Neat [',', ' '] := neat_of_all rfl

theorem neat_parentheses {cs : List Char} (h : Neat cs) : Neat ('(' :: (cs ++ [')'])) :=
  (neat_of_all rfl : Neat ['(']).append (h.append (neat_of_all rfl))

mutual

/-- **What is written for a proper expression is neat.** Braces, quotes and line endings can only
come from the text of a literal, and there they are between quotes. -/
theorem neat_source : ∀ expr : Node, expr.isProper = true → Neat expr.source
  | .reference loc path, h => by
    have hpath : ∀ text ∈ path.map String.toList, Neat text := by
      intro text htext
      obtain ⟨property, hproperty, rfl⟩ := List.mem_map.1 htext
      exact neat_of_isIdentifier (List.all_eq_true.1 h property hproperty)
    exact neat_dot.append (neat_flatten_intersperse neat_dot hpath)
  | .literal loc value, _ => neat_write value.toList
  | .call loc name [], h => by
    rw [Node.isProper, Bool.and_eq_true] at h
    rw [Node.source_call (by simp)]
    exact (neat_of_isIdentifier h.1).append (neat_parentheses neat_nil)
  -- a stage behind a bar
  | .call loc name [arg], h => by
    rw [Node.isProper, Node.areProper, Node.areProper, Bool.and_true, Bool.and_eq_true] at h
    rw [Node.source]
    exact ((neat_source arg h.2).append neat_bar).append (neat_of_isIdentifier h.1)
  -- arguments in parentheses, with commas between them
  | .call loc name (arg :: other :: args), h => by
    rw [Node.isProper, Bool.and_eq_true] at h
    rw [Node.source_call (by simp)]
    exact (neat_of_isIdentifier h.1).append (neat_parentheses
      (neat_flatten_intersperse neat_separator (neat_sources (arg :: other :: args) h.2)))
  | .text .., h | .interpolation .., h | .inclusion .., h | .block .., h | .list .., h => by
    cases h

theorem neat_sources : ∀ exprs : List Node, Node.areProper exprs = true →
    ∀ text ∈ Node.sources exprs, Neat text
  | [], _ => nofun
  | expr :: exprs, h => by
    rw [Node.areProper, Bool.and_eq_true] at h
    rw [Node.sources]
    exact List.forall_mem_cons.2 ⟨neat_source expr h.1, neat_sources exprs h.2⟩

end

/-! ### What a written expression begins with

A written expression begins with a letter only if it begins with a call (`leadingCall?`), and then
the whole name stands there with a parenthesis behind it. Everything that a directive can be taken
for is decided by this beginning. -/

/-- An expression that begins with a call begins with the name of that call, and a parenthesis. -/
theorem exists_source_of_leadingCall? : ∀ (expr : Node) {name : String}, expr.isProper = true →
    expr.leadingCall? = some name →
      isIdentifier name.toList = true ∧ ∃ cs, expr.source = name.toList ++ '(' :: cs
  | .call loc function [], name, h, hlead => by
    rw [Node.isProper, Bool.and_eq_true] at h
    cases hlead
    exact ⟨h.1, _, Node.source_call (by simp)⟩
  | .call loc function [arg], name, h, hlead => by
    rw [Node.isProper, Node.areProper, Node.areProper, Bool.and_true, Bool.and_eq_true] at h
    rw [Node.leadingCall?] at hlead
    obtain ⟨hname, cs, hcs⟩ := exists_source_of_leadingCall? arg h.2 hlead
    refine ⟨hname, cs ++ ([' ', '|', ' '] ++ function.toList), ?_⟩
    rw [Node.source, hcs]
    simp
  | .call loc function (arg :: other :: args), name, h, hlead => by
    rw [Node.isProper, Bool.and_eq_true] at h
    cases hlead
    exact ⟨h.1, _, Node.source_call (by simp)⟩

/-- An expression that begins with no call begins with a dot or a quote. -/
theorem exists_source_of_leadingCall?_eq_none : ∀ expr : Node, expr.isProper = true →
    expr.leadingCall? = none → ∃ c cs, expr.source = c :: cs ∧ isLetter c = false
  | .reference loc path, _, _ => ⟨'.', _, rfl, rfl⟩
  | .literal loc value, _, _ => ⟨'"', _, rfl, rfl⟩
  | .call loc function [arg], h, hlead => by
    rw [Node.isProper, Node.areProper, Node.areProper, Bool.and_true, Bool.and_eq_true] at h
    rw [Node.leadingCall?] at hlead
    obtain ⟨c, cs, hcs, hc⟩ := exists_source_of_leadingCall?_eq_none arg h.2 hlead
    refine ⟨c, cs ++ ([' ', '|', ' '] ++ function.toList), ?_, hc⟩
    rw [Node.source, hcs]
    simp

/-! ### What a written directive announces

The heading of a directive is that of the first word in the table that stands at the beginning of
its interior and ends there. No two entries have the same word, and an identifier ends in one place
only, so at most one entry answers and the order of the table does not matter. -/

/-- The words that begin directives are identifiers. -/
theorem isIdentifier_of_mem_headings {word : String} {announce : List Char → Heading}
    (h : (word, announce) ∈ headings) : isIdentifier word.toList = true := by
  have hall : ∀ entry ∈ headings, isIdentifier entry.1.toList = true := by
    intro entry hentry
    simp only [headings, List.mem_cons, List.not_mem_nil, or_false] at hentry
    rcases hentry with rfl | rfl | rfl | rfl | rfl | rfl | rfl <;> decide
  exact hall _ h

/-- A directive that no such word begins interpolates. -/
theorem ofInterior_eq_interpolation {cs : List Char}
    (h : ∀ entry ∈ headings, afterWord? entry.1 cs = none) :
    Heading.ofInterior cs = .interpolation cs := by
  have hnone : headings.findSome? (fun entry => (afterWord? entry.1 cs).map entry.2) = none := by
    rw [List.findSome?_eq_none_iff]
    intro entry hentry
    exact Option.map_eq_none_iff.2 (h entry hentry)
  rw [Heading.ofInterior_eq, hnone, Option.getD_none]

/-- A directive whose interior begins with no letter interpolates. -/
theorem ofInterior_of_not_isLetter {c : Char} (h : isLetter c = false) (cs : List Char) :
    Heading.ofInterior (c :: cs) = .interpolation (c :: cs) := by
  apply ofInterior_eq_interpolation
  intro entry hentry
  obtain ⟨d, ds, hword, hd⟩ := exists_letter_of_isIdentifier (isIdentifier_of_mem_headings hentry)
  have hne : d ≠ c := by
    rintro rfl
    rw [h] at hd
    cases hd
  simp [afterWord?, hword, hne]

/-- Where a word ends, it is a word of letters and digits only as a whole. -/
theorem isPrefixOf_and_isBoundary {word name rest : List Char}
    (hword : ∀ c ∈ word, isAlphanumeric c = true) (hname : ∀ c ∈ name, isAlphanumeric c = true)
    (hrest : isBoundary rest = true) :
    (word.isPrefixOf (name ++ rest) && isBoundary ((name ++ rest).drop word.length))
      = decide (word = name) := by
  induction word generalizing name with
  | nil =>
    cases name with
    | nil => simpa using hrest
    | cons c name =>
      have hc : isAlphanumeric c = true := hname c List.mem_cons_self
      simp [isBoundary, hc]
  -- one character further on both sides; the first where they differ decides both
  | cons d word ih =>
    obtain ⟨hd, hword⟩ := List.forall_mem_cons.1 hword
    cases name with
    | nil =>
      cases rest with
      | nil => simp
      | cons c rest =>
        have hne : d ≠ c := by
          rintro rfl
          simp [isBoundary, hd] at hrest
        simp [hne]
    | cons c name =>
      obtain ⟨-, hname⟩ := List.forall_mem_cons.1 hname
      have hih := ih hword hname
      by_cases hdc : d = c
      · subst hdc
        simpa using hih
      · simp [hdc]

/-- Behind an identifier that ends, what follows it stands behind that word and no other. -/
theorem afterWord?_append {word : String} {name rest : List Char}
    (hword : isIdentifier word.toList = true) (hname : isIdentifier name = true)
    (hrest : isBoundary rest = true) :
    afterWord? word (name ++ rest) = if word.toList = name then some rest else none := by
  have hboundary := isPrefixOf_and_isBoundary (fun _ hc => isAlphanumeric_of_mem hword hc)
    (fun _ hc => isAlphanumeric_of_mem hname hc) hrest
  rw [afterWord?, hboundary]
  by_cases heq : word.toList = name
  · subst heq
    simp
  · simp [heq]

/-- Among entries of different names, a search for one name finds its entry. -/
theorem findSome?_of_mem {α β : Type} {entries : List (String × α)} {name : String} {value : α}
    {search : String × α → Option β} {f : α → β} (h : (name, value) ∈ entries)
    (hnodup : (entries.map Prod.fst).Nodup)
    (hsearch : ∀ entry ∈ entries,
      search entry = if entry.1 = name then some (f entry.2) else none) :
    entries.findSome? search = some (f value) := by
  induction entries with
  | nil => cases h
  | cons entry entries ih =>
    obtain ⟨hfresh, hnodup⟩ := List.nodup_cons.1 hnodup
    obtain ⟨hentry, hentries⟩ := List.forall_mem_cons.1 hsearch
    rw [List.findSome?_cons, hentry]
    rcases List.mem_cons.1 h with rfl | hmem
    · rw [if_pos rfl]
    -- the entry is further behind, and the names before it are other ones
    · have hne : entry.1 ≠ name := by
        rintro rfl
        exact hfresh (List.mem_map.2 ⟨_, hmem, rfl⟩)
      rw [if_neg hne, ih hmem hnodup hentries]

/-- **A word of directives announces what it does**, where it ends, and the directive is handed what
stands behind the word. -/
theorem ofInterior_word {word : String} {announce : List Char → Heading}
    (h : (word, announce) ∈ headings) {rest : List Char} (hrest : isBoundary rest = true) :
    Heading.ofInterior (word.toList ++ rest) = announce rest := by
  have hnodup : (headings.map Prod.fst).Nodup := by decide
  have hfound : headings.findSome? (fun entry =>
      (afterWord? entry.1 (word.toList ++ rest)).map entry.2) = some (announce rest) := by
    refine findSome?_of_mem (f := (· rest)) h hnodup ?_
    intro entry hentry
    rw [afterWord?_append (isIdentifier_of_mem_headings hentry) (isIdentifier_of_mem_headings h)
      hrest]
    simp only [String.toList_inj]
    split <;> rfl
  rw [Heading.ofInterior_eq, hfound, Option.getD_some]

/-- Any other identifier interpolates. -/
theorem ofInterior_name {name rest : List Char} (hname : isIdentifier name = true)
    (hne : ∀ entry ∈ headings, entry.1.toList ≠ name) (hrest : isBoundary rest = true) :
    Heading.ofInterior (name ++ rest) = .interpolation (name ++ rest) := by
  apply ofInterior_eq_interpolation
  intro entry hentry
  rw [afterWord?_append (isIdentifier_of_mem_headings hentry) hname hrest,
    if_neg (hne entry hentry)]

/-- A written directive announces what its interior does. -/
theorem heading_directive (inner : List Char) (line : Nat) :
    (Segment.mk .directive (Node.directive inner) line).heading = Heading.ofInterior inner := by
  have hinterior : (Segment.mk .directive (Node.directive inner) line).interior = inner :=
    Segment.interior_directive inner line
  rw [Segment.heading, hinterior]

/-- An expression that does not lead with a keyword is interpolated. -/
theorem ofInterior_source {expr : Node} (h : expr.isProper = true)
    (hlead : expr.leadsWithKeyword = false) :
    Heading.ofInterior expr.source = .interpolation expr.source := by
  cases hcall : expr.leadingCall? with
  -- a dot or a quote, which begins no word
  | none =>
    obtain ⟨c, cs, hsource, hc⟩ := exists_source_of_leadingCall?_eq_none expr h hcall
    rw [hsource, ofInterior_of_not_isLetter hc]
  | some name =>
    obtain ⟨hname, cs, hsource⟩ := exists_source_of_leadingCall? expr h hcall
    rw [hsource]
    -- the name is none of the words, or the expression would lead with a keyword
    refine ofInterior_name hname ?_ rfl
    intro entry hentry heq
    rw [Node.leadsWithKeyword, hcall, List.any_eq_false] at hlead
    exact hlead entry hentry (beq_iff_eq.2 (String.toList_inj.1 heq))

/-! ### What nothing can read

These are the two ways in which a written directive is lost. Behind the name of a call stands a
parenthesis, and no directive that begins with a word can have one next. And a brace at the
beginning of an interior is no beginning of an expression. -/

/-- A structural word before a parenthesis says nothing. -/
theorem piece?_eq_none_of_word {segment : Segment} {word : String}
    {announce : List Char → Heading} (h : (word, announce) ∈ headings) {cs : List Char}
    (hheading : segment.heading = announce ('(' :: cs)) (src : String) :
    segment.piece? src = none := by
  obtain ⟨e, hread⟩ : ∃ e, Expr.read src ('(' :: cs) segment.line = .error e :=
    Expr.exists_read_eq_error rfl
  obtain ⟨e', hinclusion⟩ : ∃ e', Expr.readInclusion src ('(' :: cs) segment.line = .error e' :=
    Expr.exists_readInclusion_eq_error rfl
  -- every word but `else` and `end` wants an expression, and those two want nothing at all
  simp only [headings, List.mem_cons, Prod.mk.injEq, List.not_mem_nil, or_false] at h
  rcases h with ⟨-, rfl⟩ | ⟨-, rfl⟩ | ⟨-, rfl⟩ | ⟨-, rfl⟩ | ⟨-, rfl⟩ | ⟨-, rfl⟩ | ⟨-, rfl⟩ <;>
    simp only [Segment.piece?, hheading, hread, hinclusion] <;> rfl

/-- **The interpolation of an expression that leads with a keyword says nothing**: it is taken for
the directive of that word, whose rest then begins with a parenthesis. -/
theorem piece?_eq_none_of_keyword {expr : Node} (h : expr.isProper = true)
    (hlead : expr.leadsWithKeyword = true) (src : String) (line : Nat) :
    (Segment.mk .directive (Node.directive expr.source) line).piece? src = none := by
  cases hcall : expr.leadingCall? with
  | none =>
    rw [Node.leadsWithKeyword, hcall] at hlead
    cases hlead
  | some name =>
    rw [Node.leadsWithKeyword, hcall, List.any_eq_true] at hlead
    obtain ⟨⟨word, announce⟩, hmem, hword⟩ := hlead
    obtain rfl : word = name := by simpa using hword
    obtain ⟨-, cs, hsource⟩ := exists_source_of_leadingCall? expr h hcall
    refine piece?_eq_none_of_word hmem (?_ : _ = announce ('(' :: cs)) src
    rw [heading_directive, hsource, ofInterior_word hmem rfl]

/-- **A directive whose interior begins with a brace says nothing.** It announces an interpolation,
as no word begins with a brace, and no expression does either. -/
theorem piece?_eq_none_of_brace (inner : List Char) (src : String) (line : Nat) :
    (Segment.mk .directive (Node.directive ('{' :: inner)) line).piece? src = none := by
  obtain ⟨e, hread⟩ : ∃ e, Expr.read src ('{' :: inner) line = .error e :=
    Expr.exists_read_eq_error rfl
  rw [Segment.piece?, heading_directive, ofInterior_of_not_isLetter rfl]
  simp only [hread]
  rfl

/-! ### Reading what is written

What is written for an expression has a derivation whose tree is that expression, and the reader
accepts exactly what has a derivation. So nothing has to be said about the reader itself here: it is
enough to carry derivations over the spaces that are written before an expression, and between the
two expressions of an inclusion. -/

/-- What stands behind the word of an inclusion. -/
def inclusionContent (name : Node) : Option Node → List Char
  | none => ' ' :: name.source
  | some data => ' ' :: (name.source ++ ' ' :: data.source)

theorem isBoundary_inclusionContent (name : Node) (data : Option Node) :
    isBoundary (inclusionContent name data) = true := by
  cases data <;> rfl

namespace Expr

theorem derives_cons_space {text : List Char} {pipeline : Pipeline} :
    Derives (' ' :: text) pipeline ↔ Derives text pipeline := by
  rw [derives_iff_scan?, derives_iff_scan?, scan?_cons_space]

/-- Any text that has the derivation of a written expression reads back as that expression. The tree
of a derivation is the expression with its locations gone, hence the comparison without them. -/
theorem exists_read_of_tree_eq {text : List Char} {pipeline : Pipeline} {expr : Node} {src : String}
    (h : Derives text pipeline) (htree : pipeline.tree src = expr.placed src) (line : Nat) :
    ∃ expr', read src text line = .ok expr' ∧ expr'.unlocated = expr.unlocated := by
  obtain ⟨expr', hread, hexpr⟩ := exists_read_of_derives h src line
  refine ⟨expr', hread, ?_⟩
  rw [← Node.unlocated_unlined expr', hexpr, htree, Node.unlocated_placed]

/-- **A written expression reads back as that expression**, spacing before it or not. -/
theorem exists_read_source {expr : Node} (h : expr.isProper = true) (src : String) (line : Nat) :
    ∃ expr', read src expr.source line = .ok expr' ∧ expr'.unlocated = expr.unlocated := by
  obtain ⟨pipeline, hderives, htree⟩ := exists_derives_source src expr h
  exact exists_read_of_tree_eq hderives htree line

theorem exists_read_space_source {expr : Node} (h : expr.isProper = true) (src : String)
    (line : Nat) :
    ∃ expr', read src (' ' :: expr.source) line = .ok expr' ∧ expr'.unlocated = expr.unlocated := by
  obtain ⟨pipeline, hderives, htree⟩ := exists_derives_source src expr h
  exact exists_read_of_tree_eq (derives_cons_space.2 hderives) htree line

/-- A written expression behind a space reads back as an inclusion of that name. -/
theorem exists_readInclusion_name {name : Node} (h : name.isProper = true) (src : String)
    (line : Nat) :
    ∃ name', readInclusion src (' ' :: name.source) line = .ok (name', none) ∧
      name'.unlocated = name.unlocated := by
  obtain ⟨pipeline, hderives, htree⟩ := exists_derives_source src name h
  have hscan := derives_iff_scan?.1 (derives_cons_space.2 hderives)
  obtain ⟨name', hread, hname⟩ := exists_readInclusion_of_scan? hscan src line
  refine ⟨name', hread, ?_⟩
  rw [← Node.unlocated_unlined, hname, htree, Node.unlocated_placed]

/-- **Two written expressions behind spaces read back as an inclusion** of the first with the second
for data. Nothing but the space says where the first one ends, and no expression begins with what
another one could go on with there. -/
theorem exists_readInclusion_data {name data : Node} (hname : name.isProper = true)
    (hdata : data.isProper = true) (src : String) (line : Nat) :
    ∃ name' data', readInclusion src (' ' :: (name.source ++ ' ' :: data.source)) line
        = .ok (name', some data') ∧
      name'.unlocated = name.unlocated ∧ data'.unlocated = data.unlocated := by
  obtain ⟨p, hp, hptree⟩ := exists_derives_source src name hname
  obtain ⟨q, hq, hqtree⟩ := exists_derives_source src data hdata
  rw [derives_iff_scan?] at hp hq
  -- the space ends what stands before it, so each is scanned on its own
  have hscan : scan? (' ' :: (name.source ++ ' ' :: data.source))
      = some (p.terminals ++ q.terminals) := by
    rw [scan?_cons_space, scan?_append hp (parts_of_isSpacing_head (by rintro d ⟨⟩; rfl)),
      scan?_cons_space, hq, Option.map_some]
  obtain ⟨name', data', hread, hname', hdata'⟩ :=
    exists_readInclusion_of_scan?_append hscan src line
  refine ⟨name', data', hread, ?_, ?_⟩
  · rw [← Node.unlocated_unlined, hname', hptree, Node.unlocated_placed]
  · rw [← Node.unlocated_unlined, hdata', hqtree, Node.unlocated_placed]

/-- **What stands behind the word of a written inclusion reads back as that inclusion**, with data
or without. -/
theorem exists_readInclusion {name : Node} {data : Option Node} (hname : name.isProper = true)
    (hdata : ∀ expr ∈ data, expr.isProper = true) (src : String) (line : Nat) :
    ∃ name' data', readInclusion src (inclusionContent name data) line = .ok (name', data') ∧
      name'.unlocated = name.unlocated ∧ data'.map Node.unlocated = data.map Node.unlocated := by
  cases data with
  | none =>
    obtain ⟨name', hread, hsame⟩ := exists_readInclusion_name hname src line
    exact ⟨name', none, hread, hsame, rfl⟩
  | some data =>
    obtain ⟨name', data', hread, hsameName, hsameData⟩ :=
      exists_readInclusion_data hname (hdata data rfl) src line
    exact ⟨name', some data', hread, hsameName, congrArg some hsameData⟩

end Expr

end Stencil
