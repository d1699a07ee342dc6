import StencilDesk.Proofs.Yaml.Keys

/-!
# Blank texts

A text of nothing but white space may be a document all the same: not all that counts as white
space elsewhere is a space or a line break here. Such a document is a plain scalar, never a
collection. Reading only goes forward, so the words of a blank text are blank, none of them is a
mark, and only marks open a collection.
-/

namespace StencilDesk
namespace Yaml

/-!
## Reading goes forward
-/

namespace Cursor

theorem skip_suffix (cursor : Cursor) : cursor.skip.rest <:+ cursor.rest := by
  unfold skip
  split
  · exact List.suffix_refl _
  · rename_i c rest hrest
    rw [hrest]
    exact List.suffix_cons c rest

theorem go_suffix (test : Char → Bool) (mark : Mark) (rest : List Char) :
    (skipWhile.go test mark rest).rest <:+ rest := by
  induction rest generalizing mark with
  | nil => exact List.suffix_refl _
  | cons c rest ih =>
      unfold skipWhile.go
      split
      · exact (ih _).trans (List.suffix_cons c rest)
      · exact List.suffix_refl _

theorem skipWhile_suffix (test : Char → Bool) (cursor : Cursor) :
    (cursor.skipWhile test).rest <:+ cursor.rest :=
  go_suffix test cursor.mark cursor.rest

theorem lineBreak?_suffix {cursor next : Cursor} {c : Char}
    (h : cursor.lineBreak? = some (c, next)) : next.rest <:+ cursor.rest := by
  unfold lineBreak? at h
  split at h
  · rename_i rest hrest
    cases h
    rw [hrest]
    exact (List.suffix_cons _ rest).trans (List.suffix_cons _ _)
  · rename_i first rest _ hrest
    split at h
    · cases h
      rw [hrest]
      exact List.suffix_cons first rest
    · cases h
  · cases h

end Cursor

theorem Gap.read_suffix {indent : Option (Nat × Fault)} {fuel : Nat} {gap last : Gap}
    {cursor next : Cursor} (h : Gap.read indent fuel gap cursor = .ok (last, next)) :
    next.rest <:+ cursor.rest := by
  induction fuel generalizing gap cursor with
  | zero =>
      cases h
      exact List.suffix_refl _
  | succ fuel ih =>
      unfold Gap.read at h
      split at h
      · cases h
        exact List.suffix_refl _
      · split at h
        · split at h
          · split at h
            · cases h
            · exact (ih h).trans cursor.skip_suffix
          · exact (ih h).trans cursor.skip_suffix
        · split at h
          · rename_i hbreak
            exact (ih h).trans (Cursor.lineBreak?_suffix hbreak)
          · cases h
            exact List.suffix_refl _

theorem readPlainPiece_suffix {flow : Bool} {start : Mark} {fuel : Nat} {text piece : List Char}
    {cursor next : Cursor}
    (h : readPlainPiece flow start fuel text cursor = .ok (piece, next)) :
    next.rest <:+ cursor.rest := by
  induction fuel generalizing text cursor with
  | zero =>
      cases h
      exact List.suffix_refl _
  | succ fuel ih =>
      unfold readPlainPiece at h
      split at h
      · cases h
        exact List.suffix_refl _
      · split at h
        · cases h
          exact List.suffix_refl _
        · split at h
          · cases h
          · split at h
            · cases h
              exact List.suffix_refl _
            · exact (ih h).trans cursor.skip_suffix

theorem readPlainFrom_suffix {flow : Bool} {indent : Nat} {start : Mark} {fuel : Nat}
    {plain last : PlainText} (h : readPlainFrom flow indent start fuel plain = .ok last) :
    last.cursor.rest <:+ plain.cursor.rest := by
  induction fuel generalizing plain with
  | zero =>
      cases h
      exact List.suffix_refl _
  | succ fuel ih =>
      unfold readPlainFrom at h
      dsimp only at h
      split at h
      · cases h
        exact List.suffix_refl _
      · rcases Bundle.bind_eq_ok h with ⟨⟨piece, cursor⟩, hpiece, h⟩
        have hfirst := readPlainPiece_suffix hpiece
        split at h
        · cases h
          split
          · exact hfirst
          · exact hfirst
        · rcases Bundle.bind_eq_ok h with ⟨⟨gap, behind⟩, hgap, h⟩
          have hsecond := (Gap.read_suffix hgap).trans hfirst
          dsimp only at h
          split at h
          · cases h
            exact hsecond
          · exact (ih h).trans hsecond

theorem readPlain_suffix {flow broken : Bool} {indent : Nat} {cursor next : Cursor}
    {text : String} (h : readPlain flow indent cursor = .ok (text, broken, next)) :
    next.rest <:+ cursor.rest := by
  rcases Bundle.bind_eq_ok h with ⟨plain, hplain, h⟩
  cases h
  exact readPlainFrom_suffix hplain

/-!
## Words
-/

/-- Holds of the tokens that a text can have without marks: plain scalars, and the end. -/
def TokenKind.IsWord (kind : TokenKind) : Prop :=
  kind = .streamEnd ∨ ∃ text, kind = .scalar text true

namespace Scanner

/-- Holds if the text ahead is blank, nothing is open, and only words were read so far. -/
structure Idle (s : Scanner) : Prop where
  blank : ∀ c ∈ s.cursor.rest, Text.isBlank c = true
  unindented : s.indents = []
  outside : s.flowKeys = []
  words : ∀ token ∈ s.queue, token.kind.IsWord

variable {s next : Scanner}

theorem Idle.of_suffix (h : s.Idle) (cursor : Cursor) (keyAllowed : Bool)
    (hforward : cursor.rest <:+ s.cursor.rest) : Idle { s with cursor, keyAllowed } :=
  ⟨fun c hmem => h.blank c (hforward.subset hmem), h.unindented, h.outside, h.words⟩

theorem Idle.inFlow (h : s.Idle) : s.inFlow = false := by
  unfold Scanner.inFlow
  rw [h.outside]
  rfl

theorem Idle.setPendingKey (h : s.Idle) (key : Option PendingKey) :
    (s.setPendingKey key).Idle ∧ (s.setPendingKey key).cursor = s.cursor := by
  unfold Scanner.setPendingKey
  split
  · exact ⟨⟨h.blank, h.unindented, h.outside, h.words⟩, rfl⟩
  · rename_i hinside
    rw [h.outside] at hinside
    cases hinside

theorem Idle.push (h : s.Idle) {kind : TokenKind} (hkind : kind.IsWord) (mark : Mark) :
    (s.push kind mark).Idle := by
  refine ⟨h.blank, h.unindented, h.outside, ?_⟩
  intro token hmem
  rcases List.mem_append.mp hmem with hold | hnew
  · exact h.words token hold
  · rw [List.mem_singleton.mp hnew]
    exact hkind

theorem Idle.dropStaleKeys (h : s.Idle) (hdrop : s.dropStaleKeys = .ok next) : next.Idle := by
  have houtside : ∀ drop : Option PendingKey → Option PendingKey, s.flowKeys.map drop = [] := by
    intro drop
    rw [h.outside]
    rfl
  unfold Scanner.dropStaleKeys at hdrop
  dsimp only at hdrop
  split at hdrop
  · split at hdrop
    · cases hdrop
    · cases hdrop
      exact ⟨h.blank, h.unindented, houtside _, h.words⟩
  · cases hdrop
    exact ⟨h.blank, h.unindented, houtside _, h.words⟩

theorem Idle.closeBlocks (h : s.Idle) (column : Option Nat) : s.closeBlocks column = s := by
  unfold Scanner.closeBlocks
  rw [h.inFlow]
  cases s with
  | mk cursor queue settled indents keyAllowed blockKey flowKeys =>
      have hindents : indents = [] := h.unindented
      simp [hindents]

theorem Idle.removeKey (h : s.Idle) (hremove : s.removeKey = .ok next) :
    next.Idle ∧ next.cursor = s.cursor := by
  unfold Scanner.removeKey at hremove
  split at hremove
  · split at hremove
    · cases hremove
    · cases hremove
      exact h.setPendingKey none
  · cases hremove
    exact ⟨h, rfl⟩

theorem Idle.saveKey (h : s.Idle) (hsave : s.saveKey = .ok next) :
    next.Idle ∧ next.cursor = s.cursor := by
  unfold Scanner.saveKey at hsave
  split at hsave
  · rcases Bundle.bind_eq_ok hsave with ⟨removed, hremove, hsave⟩
    rcases h.removeKey hremove with ⟨hidle, hcursor⟩
    cases hsave
    rcases hidle.setPendingKey _ with ⟨hset, hsame⟩
    exact ⟨hset, hsame.trans hcursor⟩
  · cases hsave
    exact ⟨h, rfl⟩

theorem Idle.endBlocks (h : s.Idle) (hend : s.endBlocks = .ok next) : next.Idle := by
  rcases Bundle.bind_eq_ok hend with ⟨removed, hremove, hend⟩
  rw [h.closeBlocks] at hremove
  rcases h.removeKey hremove with ⟨hidle, _⟩
  cases hend
  exact ⟨hidle.blank, hidle.unindented, hidle.outside, hidle.words⟩

theorem Idle.skipToToken (h : s.Idle) (fuel : Nat) : (skipToToken fuel s).Idle := by
  induction fuel generalizing s with
  | zero => exact h
  | succ fuel ih =>
      have hmark : ∀ cursor : Cursor, (if cursor.mark.offset == 0 && cursor.sees 0 '\ufeff'
          then cursor.skip else cursor).rest <:+ cursor.rest := by
        intro cursor
        split
        · exact cursor.skip_suffix
        · exact List.suffix_refl _
      have hcomment : ∀ cursor : Cursor, (if cursor.sees 0 '#' then cursor.skipLineText
          else cursor).rest <:+ cursor.rest := by
        intro cursor
        split
        · exact cursor.skipWhile_suffix _
        · exact List.suffix_refl _
      have hforward := (hcomment _).trans ((Cursor.skipWhile_suffix
        (fun c => c == ' ' || ((s.inFlow || !s.keyAllowed) && c == '\t')) _).trans
        (hmark s.cursor))
      unfold Scanner.skipToToken
      dsimp only
      split
      · rename_i hbreak
        exact ih (h.of_suffix _ _ ((Cursor.lineBreak?_suffix hbreak).trans hforward))
      · exact h.of_suffix _ s.keyAllowed hforward

/-!
## Tokens
-/

theorem Idle.readPlainScalar (h : s.Idle) (hread : s.readPlainScalar = .ok next) : next.Idle := by
  rcases Bundle.bind_eq_ok hread with ⟨saved, hsave, hread⟩
  rcases h.saveKey hsave with ⟨hsaved, _⟩
  rcases Bundle.bind_eq_ok hread with ⟨⟨text, broken, cursor⟩, hplain, hread⟩
  cases hread
  exact (hsaved.of_suffix cursor broken (readPlain_suffix hplain)).push (.inr ⟨text, rfl⟩) _

theorem Idle.fetch (h : s.Idle) (hfetch : s.fetch = .ok next) : next.Idle := by
  rcases Bundle.bind_eq_ok hfetch with ⟨dropped, hdrop, hfetch⟩
  have hidle := (h.skipToToken _).dropStaleKeys hdrop
  rw [hidle.closeBlocks] at hfetch
  dsimp only at hfetch
  split at hfetch
  · rcases Bundle.bind_eq_ok hfetch with ⟨ended, hend, hfetch⟩
    cases hfetch
    apply Idle.push _ (.inl rfl)
    apply Idle.endBlocks _ hend
    exact hidle.of_suffix _ dropped.keyAllowed List.nil_suffix
  · rename_i c hpeek
    have hblank : Text.isBlank c = true := by
      apply hidle.blank
      exact List.mem_of_getElem? hpeek
    have hmark : ∀ mark, Text.isBlank mark = false → c ≠ mark := by
      intro mark hmark hsame
      rw [hsame, hmark] at hblank
      cases hblank
    have htriple : ∀ mark, Text.isBlank mark = false → dropped.cursor.atTriple mark = false := by
      intro mark hnot
      have hsees : dropped.cursor.sees 0 mark = false := by
        unfold Cursor.sees
        rw [hpeek]
        simpa using hmark mark hnot
      unfold Cursor.atTriple
      rw [hsees]
      simp
    -- None of the marks stands here, so what is read is a plain scalar.
    simp only [hmark '%' rfl, hmark '[' rfl, hmark ']' rfl, hmark '{' rfl, hmark '}' rfl,
      hmark ',' rfl, hmark '-' rfl, hmark '?' rfl, hmark ':' rfl, hmark '*' rfl, hmark '&' rfl,
      hmark '!' rfl, hmark '|' rfl, hmark '>' rfl, hmark '\'' rfl, hmark '"' rfl,
      htriple '-' rfl, htriple '.' rfl, and_false, false_and, if_false, Bool.false_eq_true]
      at hfetch
    split at hfetch
    · exact hidle.readPlainScalar hfetch
    · cases hfetch

theorem Idle.settle (h : s.Idle) :
    (∀ token ∈ s.settle.1, token.kind.IsWord) ∧ s.settle.2.Idle := by
  unfold Scanner.settle
  constructor
  · intro token hmem
    exact h.words token (List.mem_of_mem_take hmem)
  · exact ⟨h.blank, h.unindented, h.outside,
      fun token hmem => h.words token (List.mem_of_mem_drop hmem)⟩

theorem Idle.run (h : s.Idle) (fuel : Nat) : ∀ token ∈ (run fuel s).1, token.kind.IsWord := by
  induction fuel generalizing s with
  | zero =>
      intro token hmem
      cases hmem
  | succ fuel ih =>
      intro token hmem
      unfold Scanner.run at hmem
      split at hmem
      · cases hmem
      · rename_i fetched hfetch
        split at hmem
        · cases hmem
        · rename_i dropped hdrop
          rcases ((h.fetch hfetch).dropStaleKeys hdrop).settle with ⟨hready, hidle⟩
          dsimp only at hmem
          split at hmem
          · exact hready token hmem
          · rcases List.mem_append.mp hmem with hsettled | hlater
            · exact hready token hsettled
            · exact ih hidle token hlater

end Scanner

theorem tokens_of_blank {text : List Char} (h : ∀ c ∈ text, Text.isBlank c = true) :
    ∀ token ∈ (tokens text).1, token.kind.IsWord := by
  unfold tokens
  split
  · intro token hmem
    cases hmem
  · apply Scanner.Idle.run
    refine ⟨?_, rfl, rfl, by simp⟩
    intro c hmem
    split at hmem
    · exact h c (List.mem_cons_of_mem _ hmem)
    · exact h c hmem

/-!
## Events
-/

inductive EventKind.IsFlat : EventKind → Prop where
  | documentStart : IsFlat .documentStart
  | documentEnd : IsFlat .documentEnd
  | streamEnd : IsFlat .streamEnd
  | scalar (text : String) : IsFlat (.scalar {} text true)

inductive Expected.IsFlat : Expected → Prop where
  | document (explicit : Bool) : IsFlat (.document explicit)
  | blockNode : IsFlat .blockNode
  | documentEnd : IsFlat .documentEnd
  | nothing : IsFlat .nothing

namespace Outline

/-- Holds if only words lie ahead, and no collection is open. -/
structure Flat (o : Outline) : Prop where
  words : ∀ token ∈ o.tokens, token.kind.IsWord
  expected : o.expected.IsFlat
  outer : ∀ expected ∈ o.outer, expected.IsFlat

variable {o after : Outline} {event : Event} {token : Token}

theorem mem_of_peek (h : o.peek = .ok token) : token ∈ o.tokens := by
  unfold peek at h
  split at h
  · rename_i hcons
    cases h
    rw [hcons]
    exact List.mem_cons_self
  · cases h

theorem Flat.peek (h : o.Flat) (hpeek : o.peek = .ok token) : token.kind.IsWord :=
  h.words token (mem_of_peek hpeek)

theorem Flat.skip (h : o.Flat) : o.skip.Flat :=
  ⟨fun token hmem => h.words token (List.mem_of_mem_drop hmem), h.expected, h.outer⟩

theorem Flat.leave (h : o.Flat) : o.leave.Flat := by
  unfold Outline.leave
  split
  · exact ⟨h.words, .nothing, h.outer⟩
  · rename_i expected outer houter
    have hall := h.outer
    rw [houter] at hall
    exact ⟨h.words, hall expected List.mem_cons_self,
      fun other hmem => hall other (List.mem_cons_of_mem _ hmem)⟩

theorem properties_of_word (hpeek : o.peek = .ok token) (hword : token.kind.IsWord) :
    o.properties = .ok (token.mark, {}, o) := by
  unfold properties
  rw [hpeek]
  rcases hword with hkind | ⟨text, hkind⟩
  · simp only [bind, Except.bind, hkind]
    rfl
  · simp only [bind, Except.bind, hkind]
    rfl

theorem Flat.node (h : o.Flat) (hnode : o.node true false = .ok (event, after)) :
    event.kind.IsFlat ∧ after.Flat := by
  rcases Bundle.bind_eq_ok hnode with ⟨token, hpeek, hnode⟩
  have hproperties := properties_of_word hpeek (h.peek hpeek)
  rcases h.peek hpeek with hkind | ⟨text, hkind⟩
  · simp only [hkind, hproperties, bind, Except.bind, hpeek, emptyNode] at hnode
    cases hnode
  · simp only [hkind, hproperties, bind, Except.bind, hpeek] at hnode
    cases hnode
    exact ⟨.scalar text, h.skip.leave⟩

theorem Flat.skipDocumentEnds (h : o.Flat) : o.skipDocumentEnds.Flat :=
  ⟨fun token hmem => h.words token ((List.dropWhile_suffix _).subset hmem), h.expected, h.outer⟩

theorem tokens_of_directives {tokens : List Token} {versioned : Bool}
    (hwords : ∀ token ∈ tokens, token.kind.IsWord)
    (h : directives tokens versioned o = .ok after) : after.tokens = o.tokens := by
  cases tokens with
  | nil => cases h
  | cons token rest =>
      unfold directives at h
      rcases hwords token List.mem_cons_self with hkind | ⟨text, hkind⟩
      · simp only [hkind] at h
        cases h
        rfl
      · simp only [hkind] at h
        cases h
        rfl

/-- A document is not announced, so the first one begins with its node and no other one begins. -/
theorem Flat.document {explicit : Bool} (h : o.Flat)
    (hdocument : o.document explicit = .ok (event, after)) : event.kind.IsFlat ∧ after.Flat := by
  have hflat : (if explicit then o.skipDocumentEnds else o).Flat := by
    split
    · exact h.skipDocumentEnds
    · exact h
  unfold Outline.document at hdocument
  dsimp only at hdocument
  generalize (if explicit then o.skipDocumentEnds else o) = o at hflat hdocument
  rcases Bundle.bind_eq_ok hdocument with ⟨token, hpeek, hdocument⟩
  rcases hflat.peek hpeek with hkind | ⟨text, hkind⟩
  · rw [if_pos hkind] at hdocument
    cases hdocument
    exact ⟨.streamEnd, hflat.words, .nothing, hflat.outer⟩
  · simp only [hkind, reduceCtorEq, if_false, Bool.or_false] at hdocument
    split at hdocument
    · rcases Bundle.bind_eq_ok hdocument with ⟨directed, hdirected, hdocument⟩
      rcases Bundle.bind_eq_ok hdocument with ⟨start, hstart, hdocument⟩
      have hmem := mem_of_peek hstart
      rw [tokens_of_directives hflat.words hdirected] at hmem
      have hkind : start.kind ≠ .documentStart := by
        intro hsame
        have hword := hflat.words start hmem
        rw [hsame] at hword
        rcases hword with hend | ⟨text, hscalar⟩
        · cases hend
        · cases hscalar
      rw [if_pos hkind] at hdocument
      cases hdocument
    · cases hdocument
      refine ⟨.documentStart, hflat.words, .blockNode, ?_⟩
      intro expected hmem
      rcases List.mem_cons.mp hmem with hnew | hold
      · rw [hnew]
        exact .documentEnd
      · exact hflat.outer expected hold

theorem Flat.documentEnd (h : o.Flat) (hend : o.documentEnd = .ok (event, after)) :
    event.kind.IsFlat ∧ after.Flat := by
  rcases Bundle.bind_eq_ok hend with ⟨token, hpeek, hend⟩
  cases hend
  refine ⟨.documentEnd, ?_⟩
  have hskip : (if token.kind = .documentEnd then o.skip else o).Flat := by
    split
    · exact h.skip
    · exact h
  exact ⟨hskip.words, .document true, hskip.outer⟩

theorem Flat.next (h : o.Flat) (hnext : o.next = .ok (event, after)) :
    event.kind.IsFlat ∧ after.Flat := by
  unfold Outline.next at hnext
  cases hexpected : o.expected with
  | document explicit =>
      rw [hexpected] at hnext
      exact h.document hnext
  | blockNode =>
      rw [hexpected] at hnext
      exact h.node hnext
  | documentEnd =>
      rw [hexpected] at hnext
      exact h.documentEnd hnext
  | nothing =>
      rw [hexpected] at hnext
      cases hnext
  | _ =>
      have hflat := h.expected
      rw [hexpected] at hflat
      cases hflat

theorem Flat.run (h : o.Flat) (fuel : Nat) : ∀ event ∈ (run fuel o).1, event.kind.IsFlat := by
  induction fuel generalizing o with
  | zero =>
      intro event hmem
      cases hmem
  | succ fuel ih =>
      intro event hmem
      unfold Outline.run at hmem
      split at hmem
      · cases hmem
      · rename_i first behind hnext
        rcases h.next hnext with ⟨hfirst, hbehind⟩
        split at hmem
        · rw [List.mem_singleton.mp hmem]
          exact hfirst
        · rcases List.mem_cons.mp hmem with hhere | hlater
          · rw [hhere]
            exact hfirst
          · exact ih hbehind event hlater

end Outline

theorem events_of_blank {text : List Char} (h : ∀ c ∈ text, Text.isBlank c = true) :
    ∀ event ∈ (events text).1, event.kind.IsFlat := by
  unfold events
  apply Outline.Flat.run
  exact ⟨tokens_of_blank h, .document false, by simp⟩

/-!
## The document
-/

def Node.IsFlat (node : Node) : Prop :=
  node = .cut ∨ ∃ mark text, node = .scalar mark none text true

namespace Assembly

structure Flat (a : Assembly) : Prop where
  closed : a.stack = []
  root : ∀ node, a.root = some node → node.IsFlat

variable {a : Assembly}

theorem Flat.finish (h : a.Flat) (fault : Option DocumentFault) (continued : Bool) {node : Node}
    (hroot : (a.finish fault continued).root = some node) : node.IsFlat := by
  unfold Assembly.finish at hroot
  cases fault with
  | none => exact h.root node hroot
  | some fault =>
      rw [h.closed] at hroot
      dsimp only [List.length_nil, breakOff] at hroot
      cases hread : a.root with
      | none =>
          rw [hread] at hroot
          cases hroot
          exact .inl rfl
      | some read =>
          rw [hread] at hroot
          cases hroot
          exact h.root _ hread

theorem Flat.addScalar (h : a.Flat) (mark : Mark) (text : String) :
    Flat ({ a with size := a.size + 1 }.add (.scalar mark none text true) none) := by
  unfold Assembly.add
  dsimp only
  rw [h.closed]
  refine ⟨rfl, ?_⟩
  intro node hroot
  cases hroot
  exact .inr ⟨mark, text, rfl⟩

theorem Flat.read (h : a.Flat) (fault : Option Fault) {events : List Event}
    (hevents : ∀ event ∈ events, event.kind.IsFlat) {node : Node}
    (hroot : (a.read fault events).root = some node) : node.IsFlat := by
  induction events generalizing a with
  | nil => exact h.finish _ _ hroot
  | cons event rest ih =>
      have hrest : ∀ later ∈ rest, later.kind.IsFlat :=
        fun later hmem => hevents later (List.mem_cons_of_mem _ hmem)
      have hevent := hevents event List.mem_cons_self
      unfold Assembly.read at hroot
      cases hkind : event.kind with
      | documentStart =>
          rw [hkind] at hroot
          exact ih h hrest hroot
      | documentEnd =>
          rw [hkind] at hroot
          exact h.finish _ _ hroot
      | streamEnd =>
          rw [hkind] at hroot
          exact h.finish _ _ hroot
      | scalar properties text plain =>
          rw [hkind] at hroot hevent
          cases hevent
          apply ih _ hrest hroot
          exact h.addScalar event.mark text
      | _ =>
          rw [hkind] at hevent
          cases hevent

end Assembly

theorem root_of_blank {text : List Char} (h : ∀ c ∈ text, Text.isBlank c = true) {node : Node}
    (hroot : (Document.read text).root = some node) : node.IsFlat := by
  unfold Document.read at hroot
  have hempty : Assembly.Flat {} := ⟨rfl, by simp⟩
  exact hempty.read _ (events_of_blank h) hroot

namespace Value

theorem entries?_of_ofPlain {text : String} {value : Value} (h : ofPlain text = .ok value) :
    value.entries? = none := by
  unfold ofPlain at h
  split at h
  · cases h
    rfl
  · split at h
    · cases h
      rfl
    · split at h
      · cases h
        rfl
      · cases h
      · split at h
        · cases h
          rfl
        · split at h
          · cases h
            rfl
          · cases h
            rfl

theorem entries?_of_flat {document : Document} {depth count last : Nat} {place : Place}
    {node : Node} {value : Value} (hflat : node.IsFlat)
    (h : ofNode document depth place false node count = .ok (value, last)) :
    value.entries? = none := by
  unfold ofNode at h
  rcases hflat with hcut | ⟨mark, text, hscalar⟩
  · rw [hcut] at h
    cases h
  · rw [hscalar] at h
    rcases bind_eq_ok h with ⟨⟨target, aliased⟩, next, hfollow, hread⟩
    cases hfollow
    dsimp only at hread
    generalize hplain : ofScalar none text true _ = result at hread
    cases result with
    | error cause => cases hread
    | ok scalar =>
        cases hread
        exact entries?_of_ofPlain hplain

/-- A blank text has no value that is a mapping. -/
theorem entries?_of_blank {text : String} {value : Value}
    (h : text.toList.all Text.isBlank = true) (hread : ofText text = .ok value) :
    value.entries? = none := by
  rw [List.all_eq_true] at h
  rcases ofText_eq_ok hread with ⟨_, hnull⟩ | ⟨root, count, hroot, hnode⟩
  · rw [hnull]
    rfl
  · exact entries?_of_flat (root_of_blank h hroot) hnode

end Value

end Yaml
end StencilDesk
