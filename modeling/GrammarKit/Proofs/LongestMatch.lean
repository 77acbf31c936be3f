import GrammarKit.Proofs.Lexing
import GrammarKit.Proofs.WellFormed

/-!
# The longest token is read

At every place at which a token starts, it is the best of all that the symbol table could read
there: the longest, a literal before a pattern, and then the symbol that comes first.  Where nothing
could be read, characters are passed over up to white space or to a place where something can.
-/

namespace GrammarKit

namespace Text

theorem byteLength_take_lt {text : List Char} {m n : Nat} (h : m < n) (hn : n ≤ text.length) :
    byteLength (text.take m) < byteLength (text.take n) := by
  induction text generalizing m n with
  | nil => exact absurd hn (Nat.not_le_of_lt (Nat.zero_lt_of_lt h))
  | cons c text ih =>
    obtain ⟨n, rfl⟩ := Nat.exists_eq_succ_of_ne_zero (Nat.ne_zero_of_lt h)
    have hpos := c.utf8Size_pos
    cases m with
    | zero =>
      rw [List.take_zero, byteLength_nil, List.take_succ_cons, byteLength_cons]
      omega
    | succ m =>
      have := ih (Nat.lt_of_succ_lt_succ h) (Nat.le_of_succ_le_succ hn)
      rw [List.take_succ_cons, List.take_succ_cons, byteLength_cons, byteLength_cons]
      omega

end Text

/-! ## What could be read -/

namespace Artifact

/-- The text starts with the literal of the symbol, which takes so many bytes. -/
def ReadsLiteral (a : Artifact) (text : List Char) (s : Symbol) (bytes : Nat) : Prop :=
  ∃ literal, a.Has s (·.definition = .literal literal) ∧ literal.toList <+: text ∧
    bytes = literal.utf8ByteSize

variable (compile : Regex.Compiler)

/-- What the pattern of the symbol, in a group behind the start of the text, finds in the text stops
behind so many bytes, and not at the start of the text. -/
def ReadsPattern (a : Artifact) (text : List Char) (s : Symbol) (bytes : Nat) : Prop :=
  ∃ written regex found, a.Has s (·.definition = .pattern written) ∧
    compile (['^', '(', '?', ':'] ++ written.toList ++ [')']) = some regex ∧
    regex.find text = some found ∧ bytes = Text.byteLength (text.take found.stop) ∧ 0 < bytes

/-- The symbol could be read at the start of the text, as a token of so many bytes. -/
def Reads (a : Artifact) (text : List Char) (s : Symbol) (bytes : Nat) : Prop :=
  a.ReadsLiteral text s bytes ∨ a.ReadsPattern compile text s bytes

/-- Of all that could be read at the start of the text this is the best. -/
structure ReadsBest (a : Artifact) (text : List Char) (s : Symbol) (bytes : Nat) : Prop where
  reads : a.Reads compile text s bytes
  longest : ∀ s' bytes', a.Reads compile text s' bytes' → bytes' ≤ bytes
  /-- If a literal could be read that is as long, then a literal is read, the first of them. -/
  literal : ∀ s', a.ReadsLiteral text s' bytes → a.ReadsLiteral text s bytes ∧ s ≤ s'
  /-- If a pattern could be read that is as long, then a literal is read or the first pattern. -/
  pattern : ∀ s', a.ReadsPattern compile text s' bytes → a.ReadsLiteral text s bytes ∨ s ≤ s'

end Artifact

/-! ## The tokens of a lexer -/

/-- The literal for which a symbol of the table stands. -/
def SymbolInfo.literalToken? (info : SymbolInfo) (s : Symbol) : Option LiteralToken :=
  match info.definition with
  | .literal text => some ⟨s, text.toList⟩
  | _ => none

/-- The pattern for which a symbol of the table stands. -/
def SymbolInfo.patternToken? (compile : Regex.Compiler) (info : SymbolInfo) (s : Symbol) :
    Option PatternToken :=
  match info.definition with
  | .pattern written => (compile (Lexer.anchor written)).map (⟨s, ·⟩)
  | _ => none

namespace SymbolInfo

variable {compile : Regex.Compiler} {info : SymbolInfo} {s : Symbol}

theorem literalToken?_eq_some {t : LiteralToken} :
    info.literalToken? s = some t ↔
      ∃ text, info.definition = .literal text ∧ t = ⟨s, text.toList⟩ := by
  unfold literalToken?
  cases info.definition <;> simp [@eq_comm _ t]

theorem patternToken?_eq_some {t : PatternToken} :
    info.patternToken? compile s = some t ↔ ∃ written regex,
      info.definition = .pattern written ∧ compile (Lexer.anchor written) = some regex ∧
        t = ⟨s, regex⟩ := by
  unfold patternToken?
  cases info.definition with
  | pattern written => simp [Option.map_eq_some_iff, @eq_comm _ t]
  | _ => simp

end SymbolInfo

namespace Lexer

variable {compile : Regex.Compiler} {a : Artifact} {lexer lexer' : Lexer}

theorem addSymbol_eq_ok {info : SymbolInfo} {s : Symbol}
    (h : lexer.addSymbol compile s info = .ok lexer') :
    lexer'.literals = (info.literalToken? s).toList ++ lexer.literals ∧
      lexer'.patterns = (info.patternToken? compile s).toList ++ lexer.patterns := by
  unfold addSymbol at h
  unfold SymbolInfo.literalToken? SymbolInfo.patternToken?
  cases hd : info.definition with
  | literal text =>
    simp only [hd] at h
    split at h
    · cases h
    · obtain rfl := Except.ok.inj h
      exact ⟨rfl, rfl⟩
  | pattern written =>
    simp only [hd] at h
    split at h
    · cases h
    · rename_i regex hregex
      split at h
      · cases h
      · obtain rfl := Except.ok.inj h
        exact ⟨rfl, by simp only [hregex]; rfl⟩
  | endOfInput | rule | expression | derived =>
    simp only [hd] at h
    obtain rfl := Except.ok.inj h
    exact ⟨rfl, rfl⟩

theorem addSymbols_eq_ok {first : Symbol} {infos : List SymbolInfo}
    (h : lexer.addSymbols compile first infos = .ok lexer') :
    lexer'.literals =
        ((infos.zipIdx first).filterMap fun e => e.1.literalToken? e.2).reverse ++
          lexer.literals ∧
      lexer'.patterns =
        ((infos.zipIdx first).filterMap fun e => e.1.patternToken? compile e.2).reverse ++
          lexer.patterns := by
  induction infos generalizing lexer first with
  | nil =>
    obtain rfl := Except.ok.inj h
    exact ⟨rfl, rfl⟩
  | cons info rest ih =>
    obtain ⟨next, hnext, h⟩ := Except.of_bind_eq_ok h
    obtain ⟨hliterals, hpatterns⟩ := addSymbol_eq_ok hnext
    obtain ⟨hliterals', hpatterns'⟩ := ih h
    rw [hliterals', hliterals, hpatterns', hpatterns, List.zipIdx_cons, List.filterMap_cons,
      List.filterMap_cons]
    constructor
    · cases info.literalToken? first <;> simp
    · cases info.patternToken? compile first <;> simp

/-- The lexer has the tokens of the table in the order of the table. -/
structure Lists (compile : Regex.Compiler) (a : Artifact) (lexer : Lexer) : Prop where
  literals : lexer.literals =
    a.symbols.toList.zipIdx.filterMap fun e => e.1.literalToken? e.2
  patterns : lexer.patterns =
    a.symbols.toList.zipIdx.filterMap fun e => e.1.patternToken? compile e.2

theorem lists_ofArtifact (h : ofArtifact compile a = .ok lexer) : lexer.Lists compile a := by
  obtain ⟨built, hbuilt, h⟩ := Except.of_bind_eq_ok h
  obtain rfl := Except.ok.inj h
  obtain ⟨hliterals, hpatterns⟩ := addSymbols_eq_ok hbuilt
  exact ⟨by simp [hliterals], by simp [hpatterns]⟩

theorem Lists.mem_literals (hl : lexer.Lists compile a) {t : LiteralToken} :
    t ∈ lexer.literals ↔
      ∃ text, a.Has t.symbol (·.definition = .literal text) ∧ t.text = text.toList := by
  simp only [hl.literals, List.mem_filterMap, Prod.exists, List.mem_zipIdx_iff_getElem?,
    Array.getElem?_toList, SymbolInfo.literalToken?_eq_some]
  constructor
  · rintro ⟨info, s, hinfo, text, hd, rfl⟩
    exact ⟨text, ⟨info, hinfo, hd⟩, rfl⟩
  · rintro ⟨text, ⟨info, hinfo, hd⟩, htext⟩
    exact ⟨info, t.symbol, hinfo, text, hd, by rw [← htext]⟩

theorem Lists.mem_patterns (hl : lexer.Lists compile a) {t : PatternToken} :
    t ∈ lexer.patterns ↔ ∃ written, a.Has t.symbol (·.definition = .pattern written) ∧
      compile (anchor written) = some t.regex := by
  simp only [hl.patterns, List.mem_filterMap, Prod.exists, List.mem_zipIdx_iff_getElem?,
    Array.getElem?_toList, SymbolInfo.patternToken?_eq_some]
  constructor
  · rintro ⟨info, s, hinfo, written, regex, hd, hregex, rfl⟩
    exact ⟨written, ⟨info, hinfo, hd⟩, hregex⟩
  · rintro ⟨written, ⟨info, hinfo, hd⟩, hregex⟩
    exact ⟨info, t.symbol, hinfo, written, t.regex, hd, hregex, rfl⟩

end Lexer

/-! ## Candidates -/

/-- The bytes that the candidate takes at the start of the text. -/
def Candidate.bytes (c : Candidate) (text : List Char) : Nat :=
  Text.byteLength (text.take c.length)

theorem LiteralToken.candidate?_eq_some {t : LiteralToken} {text : List Char} {c : Candidate} :
    t.candidate? text = some c ↔ t.text <+: text ∧ c = ⟨t.symbol, t.text.length⟩ := by
  simp [candidate?, @eq_comm _ c]

theorem PatternToken.candidate?_eq_some {t : PatternToken} {text : List Char} {c : Candidate} :
    t.candidate? text = some c ↔
      ∃ found, t.regex.find text = some found ∧ 0 < found.stop ∧
        c = ⟨t.symbol, found.stop⟩ := by
  unfold candidate?
  split
  · rename_i start n hfound
    simp [hfound, eq_comm]
  · rename_i hnone
    simp only [reduceCtorEq, false_iff]
    rintro ⟨⟨start, _ | n⟩, hfound, hpos, -⟩
    · exact Nat.lt_irrefl 0 hpos
    · exact hnone start n hfound

namespace Lexer

variable {compile : Regex.Compiler} {a : Artifact} {lexer : Lexer} {text : List Char} {s : Symbol}
  {bytes : Nat} {c d : Candidate}

def literalCandidates (lexer : Lexer) (text : List Char) : List Candidate :=
  lexer.literals.filterMap (·.candidate? text)

def patternCandidates (lexer : Lexer) (text : List Char) : List Candidate :=
  lexer.patterns.filterMap (·.candidate? text)

theorem length_le_of_mem_candidates (h : c ∈ lexer.candidates text) : c.length ≤ text.length := by
  rcases List.mem_append.mp h with h | h
  · obtain ⟨t, -, ht⟩ := List.mem_filterMap.mp h
    obtain ⟨hstarts, rfl⟩ := LiteralToken.candidate?_eq_some.mp ht
    exact hstarts.length_le
  · obtain ⟨t, -, ht⟩ := List.mem_filterMap.mp h
    obtain ⟨found, hfound, -, rfl⟩ := PatternToken.candidate?_eq_some.mp ht
    exact t.regex.stop_le hfound

theorem Lists.readsLiteral_iff (hl : lexer.Lists compile a) :
    a.ReadsLiteral text s bytes ↔
      ∃ c ∈ lexer.literalCandidates text, c.symbol = s ∧ c.bytes text = bytes := by
  constructor
  · rintro ⟨literal, hhas, hstarts, rfl⟩
    refine ⟨⟨s, literal.toList.length⟩, List.mem_filterMap.mpr ⟨⟨s, literal.toList⟩,
      hl.mem_literals.mpr ⟨literal, hhas, rfl⟩,
      LiteralToken.candidate?_eq_some.mpr ⟨hstarts, rfl⟩⟩, rfl, ?_⟩
    rw [Candidate.bytes, ← List.prefix_iff_eq_take.mp hstarts, Text.byteLength_toList]
  · rintro ⟨c, hc, rfl, rfl⟩
    obtain ⟨t, ht, hc⟩ := List.mem_filterMap.mp hc
    obtain ⟨literal, hhas, htext⟩ := hl.mem_literals.mp ht
    obtain ⟨hstarts, rfl⟩ := LiteralToken.candidate?_eq_some.mp hc
    refine ⟨literal, hhas, htext ▸ hstarts, ?_⟩
    rw [Candidate.bytes, ← List.prefix_iff_eq_take.mp hstarts, htext, Text.byteLength_toList]

theorem Lists.readsPattern_iff (hl : lexer.Lists compile a) :
    a.ReadsPattern compile text s bytes ↔
      ∃ c ∈ lexer.patternCandidates text, c.symbol = s ∧ c.bytes text = bytes := by
  constructor
  · rintro ⟨written, regex, found, hhas, hregex, hfound, rfl, hpos⟩
    have hstop : 0 < found.stop := by
      refine Nat.pos_of_ne_zero fun hzero => ?_
      rw [hzero] at hpos
      exact Nat.lt_irrefl 0 hpos
    exact ⟨⟨s, found.stop⟩, List.mem_filterMap.mpr ⟨⟨s, regex⟩,
      hl.mem_patterns.mpr ⟨written, hhas, hregex⟩,
      PatternToken.candidate?_eq_some.mpr ⟨found, hfound, hstop, rfl⟩⟩, rfl, rfl⟩
  · rintro ⟨c, hc, rfl, rfl⟩
    obtain ⟨t, ht, hc⟩ := List.mem_filterMap.mp hc
    obtain ⟨written, hhas, hregex⟩ := hl.mem_patterns.mp ht
    obtain ⟨found, hfound, hstop, rfl⟩ := PatternToken.candidate?_eq_some.mp hc
    exact ⟨written, t.regex, found, hhas, hregex, hfound, rfl,
      Text.byteLength_take_lt hstop (t.regex.stop_le hfound)⟩

-- Candidates that are taken from the table in its order have their symbols in order.
theorem pairwise_symbol {f : SymbolInfo → Symbol → Option Candidate}
    (hf : ∀ info s c, f info s = some c → c.symbol = s) (infos : List SymbolInfo) :
    (infos.zipIdx.filterMap fun e => f e.1 e.2).Pairwise (·.symbol < ·.symbol) := by
  have hindex : infos.zipIdx.Pairwise fun e e' => e.2 < e'.2 := by
    rw [← List.pairwise_map (f := Prod.snd), List.zipIdx_map_snd]
    exact List.pairwise_lt_range'
  refine List.Pairwise.filterMap _ (fun e e' hlt c hc d hd => ?_) hindex
  rwa [hf _ _ _ hc, hf _ _ _ hd]

theorem Lists.pairwise_literalCandidates (hl : lexer.Lists compile a) (text : List Char) :
    (lexer.literalCandidates text).Pairwise (·.symbol < ·.symbol) := by
  rw [literalCandidates, hl.literals, List.filterMap_filterMap]
  refine pairwise_symbol (f := fun info s => (info.literalToken? s).bind (·.candidate? text))
    (fun info s c hc => ?_) a.symbols.toList
  obtain ⟨t, ht, hc⟩ := Option.bind_eq_some_iff.mp hc
  obtain ⟨_, -, rfl⟩ := SymbolInfo.literalToken?_eq_some.mp ht
  obtain ⟨-, rfl⟩ := LiteralToken.candidate?_eq_some.mp hc
  rfl

theorem Lists.pairwise_patternCandidates (hl : lexer.Lists compile a) (text : List Char) :
    (lexer.patternCandidates text).Pairwise (·.symbol < ·.symbol) := by
  rw [patternCandidates, hl.patterns, List.filterMap_filterMap]
  refine pairwise_symbol
    (f := fun info s => (info.patternToken? compile s).bind (·.candidate? text))
    (fun info s c hc => ?_) a.symbols.toList
  obtain ⟨t, ht, hc⟩ := Option.bind_eq_some_iff.mp hc
  obtain ⟨_, _, -, -, rfl⟩ := SymbolInfo.patternToken?_eq_some.mp ht
  obtain ⟨_, -, -, rfl⟩ := PatternToken.candidate?_eq_some.mp hc
  rfl

end Lexer

/-! ## The best candidate -/

namespace Candidate

variable {cs : List Candidate} {best : Option Candidate} {c d : Candidate}

/-- No candidate of the list is longer, and those that are as long have no earlier symbol. -/
def LeadsAmong (c : Candidate) (cs : List Candidate) : Prop :=
  ∀ d ∈ cs, d.length ≤ c.length ∧ (d.length = c.length → c.symbol ≤ d.symbol)

theorem longer_eq_some (h : longer best d = some c) :
    (best = some c ∧ d.length ≤ c.length) ∨ (d = c ∧ ∀ b, best = some b → b.length < c.length) := by
  unfold longer at h
  split at h
  · exact .inr ⟨Option.some.inj h, by simp⟩
  · rename_i b
    split at h
    · rename_i hlt
      obtain rfl := Option.some.inj h
      exact .inr ⟨rfl, by rintro _ ⟨⟩; exact hlt⟩
    · rename_i hge
      obtain rfl := Option.some.inj h
      exact .inl ⟨rfl, Nat.not_lt.mp hge⟩

-- The best of candidates with increasing symbols is the best one before, or leads among them.
theorem foldl_longer_eq_some (hcs : cs.Pairwise (·.symbol < ·.symbol))
    (h : cs.foldl longer best = some c) :
    (best = some c ∧ ∀ d ∈ cs, d.length ≤ c.length) ∨
      (c ∈ cs ∧ c.LeadsAmong cs ∧ ∀ b, best = some b → b.length < c.length) := by
  induction cs generalizing best with
  | nil => exact .inl ⟨h, by simp⟩
  | cons d cs ih =>
    obtain ⟨hd, hcs⟩ := List.pairwise_cons.mp hcs
    obtain ⟨hbest, hrest⟩ | ⟨hmem, hleads, hbest⟩ := ih hcs h
    · obtain ⟨hbest, hlength⟩ | ⟨rfl, hlt⟩ := longer_eq_some hbest
      · exact .inl ⟨hbest, List.forall_mem_cons.mpr ⟨hlength, hrest⟩⟩
      · refine .inr ⟨List.mem_cons_self, List.forall_mem_cons.mpr ⟨?_, fun e he => ?_⟩, hlt⟩
        · exact ⟨Nat.le_refl _, fun _ => Nat.le_refl _⟩
        · exact ⟨hrest e he, fun _ => Nat.le_of_lt (hd e he)⟩
    -- what leads among the rest is longer than both of the candidates before
    · obtain ⟨b, hb⟩ : ∃ b, longer best d = some b := by
        unfold longer
        split
        · exact ⟨d, rfl⟩
        · split
          · exact ⟨d, rfl⟩
          · exact ⟨_, rfl⟩
      have hlt := hbest b hb
      have hboth : d.length < c.length ∧ ∀ b, best = some b → b.length < c.length := by
        obtain ⟨rfl, hle⟩ | ⟨rfl, hbefore⟩ := longer_eq_some hb
        · refine ⟨Nat.lt_of_le_of_lt hle hlt, ?_⟩
          rintro _ ⟨⟩
          exact hlt
        · exact ⟨hlt, fun b hb => Nat.lt_trans (hbefore b hb) hlt⟩
      refine .inr ⟨List.mem_cons_of_mem d hmem, List.forall_mem_cons.mpr ⟨?_, hleads⟩, hboth.2⟩
      exact ⟨Nat.le_of_lt hboth.1, fun heq => absurd heq (Nat.ne_of_lt hboth.1)⟩

theorem foldl_longer_eq_none (h : cs.foldl longer best = none) : best = none ∧ cs = [] := by
  induction cs generalizing best with
  | nil => exact ⟨h, rfl⟩
  | cons d cs ih =>
    obtain ⟨hnone, -⟩ := ih h
    unfold longer at hnone
    split at hnone
    · cases hnone
    · split at hnone <;> cases hnone

end Candidate

namespace Lexer

variable {compile : Regex.Compiler} {a : Artifact} {lexer : Lexer} {text : List Char} {s : Symbol}
  {bytes : Nat} {c d : Candidate}

theorem candidates_eq (lexer : Lexer) (text : List Char) :
    lexer.candidates text = lexer.literalCandidates text ++ lexer.patternCandidates text := rfl

-- Longer candidates take more bytes.
theorem bytes_le_iff (hc : c ∈ lexer.candidates text) (hd : d ∈ lexer.candidates text) :
    d.bytes text ≤ c.bytes text ↔ d.length ≤ c.length := by
  have hc := length_le_of_mem_candidates hc
  have hd := length_le_of_mem_candidates hd
  constructor
  · intro h
    refine Nat.le_of_not_lt fun hlt => ?_
    exact absurd h (Nat.not_le.mpr (Text.byteLength_take_lt hlt hd))
  · intro h
    rcases Nat.lt_or_eq_of_le h with hlt | heq
    · exact Nat.le_of_lt (Text.byteLength_take_lt hlt hc)
    · exact Nat.le_of_eq (by rw [Candidate.bytes, Candidate.bytes, heq])

theorem length_eq_of_bytes_eq (hc : c ∈ lexer.candidates text) (hd : d ∈ lexer.candidates text)
    (h : d.bytes text = c.bytes text) : d.length = c.length :=
  Nat.le_antisymm ((bytes_le_iff hc hd).mp (Nat.le_of_eq h))
    ((bytes_le_iff hd hc).mp (Nat.le_of_eq h.symm))

-- What is read is a literal that leads, with no pattern longer, or a pattern that leads, with every
-- literal shorter.
theorem Lists.longest_eq_some (hl : lexer.Lists compile a) (h : lexer.longest text = some c) :
    (c ∈ lexer.literalCandidates text ∧ c.LeadsAmong (lexer.literalCandidates text) ∧
        ∀ d ∈ lexer.patternCandidates text, d.length ≤ c.length) ∨
      (c ∈ lexer.patternCandidates text ∧ c.LeadsAmong (lexer.patternCandidates text) ∧
        ∀ d ∈ lexer.literalCandidates text, d.length < c.length) := by
  rw [longest, candidates_eq, List.foldl_append] at h
  obtain ⟨hliterals, hshorter⟩ | ⟨hmem, hleads, hlonger⟩ :=
    Candidate.foldl_longer_eq_some (hl.pairwise_patternCandidates text) h
  · obtain ⟨hnone, -⟩ | ⟨hmem, hleads, -⟩ :=
      Candidate.foldl_longer_eq_some (hl.pairwise_literalCandidates text) hliterals
    · cases hnone
    · exact .inl ⟨hmem, hleads, hshorter⟩
  · refine .inr ⟨hmem, hleads, fun d hd => ?_⟩
    cases hb : (lexer.literalCandidates text).foldl Candidate.longer none with
    | none =>
      rw [(Candidate.foldl_longer_eq_none hb).2] at hd
      cases hd
    | some b =>
      obtain ⟨hnone, -⟩ | ⟨-, hb', -⟩ :=
        Candidate.foldl_longer_eq_some (hl.pairwise_literalCandidates text) hb
      · cases hnone
      · exact Nat.lt_of_le_of_lt (hb' d hd).1 (hlonger b hb)

/-- What is read is the best of all that could be read. -/
theorem Lists.readsBest (hl : lexer.Lists compile a) (h : lexer.longest text = some c) :
    a.ReadsBest compile text c.symbol (c.bytes text) := by
  have hliteral {d : Candidate} (hd : d ∈ lexer.literalCandidates text) :
      d ∈ lexer.candidates text := List.mem_append_left _ hd
  have hpattern {d : Candidate} (hd : d ∈ lexer.patternCandidates text) :
      d ∈ lexer.candidates text := List.mem_append_right _ hd
  have hc := mem_candidates_of_longest h
  have hcases := hl.longest_eq_some h
  constructor
  · rw [Artifact.Reads, hl.readsLiteral_iff, hl.readsPattern_iff]
    exact hcases.imp (fun hin => ⟨c, hin.1, rfl, rfl⟩) fun hin => ⟨c, hin.1, rfl, rfl⟩
  · intro s' bytes' hreads
    rw [Artifact.Reads, hl.readsLiteral_iff, hl.readsPattern_iff] at hreads
    obtain ⟨d, hd, -, rfl⟩ | ⟨d, hd, -, rfl⟩ := hreads
    · refine (bytes_le_iff hc (hliteral hd)).mpr ?_
      exact hcases.elim (fun hin => (hin.2.1 d hd).1) fun hin => Nat.le_of_lt (hin.2.2 d hd)
    · refine (bytes_le_iff hc (hpattern hd)).mpr ?_
      exact hcases.elim (fun hin => hin.2.2 d hd) fun hin => (hin.2.1 d hd).1
  · intro s' hreads
    obtain ⟨d, hd, rfl, hbytes⟩ := hl.readsLiteral_iff.mp hreads
    have hlength := length_eq_of_bytes_eq hc (hliteral hd) hbytes
    obtain ⟨hmem, hleads, -⟩ | ⟨-, -, hshorter⟩ := hcases
    · exact ⟨hl.readsLiteral_iff.mpr ⟨c, hmem, rfl, rfl⟩, (hleads d hd).2 hlength⟩
    · exact absurd hlength (Nat.ne_of_lt (hshorter d hd))
  · intro s' hreads
    obtain ⟨d, hd, rfl, hbytes⟩ := hl.readsPattern_iff.mp hreads
    have hlength := length_eq_of_bytes_eq hc (hpattern hd) hbytes
    obtain ⟨hmem, -, -⟩ | ⟨-, hleads, -⟩ := hcases
    · exact .inl (hl.readsLiteral_iff.mpr ⟨c, hmem, rfl, rfl⟩)
    · exact .inr ((hleads d hd).2 hlength)

/-- Nothing is read only where nothing could be read. -/
theorem Lists.not_reads (hl : lexer.Lists compile a) (h : lexer.longest text = none) (s : Symbol)
    (bytes : Nat) : ¬ a.Reads compile text s bytes := by
  have hnone : lexer.candidates text = [] := (Candidate.foldl_longer_eq_none h).2
  obtain ⟨hliterals, hpatterns⟩ := List.append_eq_nil_iff.mp hnone
  have hliterals : lexer.literalCandidates text = [] := hliterals
  have hpatterns : lexer.patternCandidates text = [] := hpatterns
  simp [Artifact.Reads, hl.readsLiteral_iff, hl.readsPattern_iff, hliterals, hpatterns]

end Lexer

/-! ## Tokens at their places -/

section

variable (compile : Regex.Compiler)

/-- In a text that starts at byte `offset` the token is the best that could be read at its place. -/
def Token.IsBest (a : Artifact) (offset : Nat) (text : List Char) (t : Token) : Prop :=
  ∃ before rest bytes, text = before ++ rest ∧ t.start = offset + Text.byteLength before ∧
    t.stop = t.start + bytes ∧ a.ReadsBest compile rest t.symbol bytes

/-- The text is at its end, or goes on with white space or with something that could be read. -/
def Artifact.EndsUnread (a : Artifact) (text : List Char) : Prop :=
  text = [] ∨ (∃ c ∈ text.head?, Text.isBlank c = true) ∨ ∃ s bytes, a.Reads compile text s bytes

/-- In a text that starts at byte `offset` the token takes characters that are not white space and
at none of which something could be read, as many of them as there are. -/
def Token.IsUnread (a : Artifact) (offset : Nat) (text : List Char) (t : Token) : Prop :=
  ∃ before run rest, text = before ++ run ++ rest ∧ run ≠ [] ∧
    t.start = offset + Text.byteLength before ∧ t.stop = t.start + Text.byteLength run ∧
    (∀ passed c behind, run = passed ++ c :: behind →
      Text.isBlank c = false ∧ ∀ s bytes, ¬ a.Reads compile (c :: behind ++ rest) s bytes) ∧
    a.EndsUnread compile rest

/-- Tokens with a symbol, extras among them, are the best at their places, and the others are
unread. -/
structure Lexed.Best (a : Artifact) (offset : Nat) (text : List Char) (x : Lexed) : Prop where
  known : ∀ t ∈ x.tokens ++ x.extras, t.isError = false → t.IsBest compile a offset text
  unknown : ∀ t ∈ x.tokens ++ x.extras, t.isError = true → t.IsUnread compile a offset text

end

section

variable {compile : Regex.Compiler} {a : Artifact} {lexer : Lexer} {offset : Nat} {c : Char}
  {text : List Char} {t : Token} {x : Lexed}

-- A character in front of the text.
theorem Token.IsBest.behind (h : t.IsBest compile a (offset + c.utf8Size) text) :
    t.IsBest compile a offset (c :: text) := by
  obtain ⟨before, rest, bytes, rfl, hstart, hstop, hbest⟩ := h
  exact ⟨c :: before, rest, bytes, rfl, by rw [hstart, Text.byteLength_cons, Nat.add_assoc], hstop,
    hbest⟩

theorem Token.IsUnread.behind (h : t.IsUnread compile a (offset + c.utf8Size) text) :
    t.IsUnread compile a offset (c :: text) := by
  obtain ⟨before, run, rest, rfl, hne, hstart, hstop, hrun⟩ := h
  exact ⟨c :: before, run, rest, rfl, hne, by rw [hstart, Text.byteLength_cons, Nat.add_assoc],
    hstop, hrun⟩

-- A run that starts where the character stops is prolonged over it.
theorem Token.IsUnread.prolong (h : t.IsUnread compile a (offset + c.utf8Size) text)
    (hstart : t.start = offset + c.utf8Size) (hblank : Text.isBlank c = false)
    (hreads : ∀ s bytes, ¬ a.Reads compile (c :: text) s bytes) :
    Token.IsUnread compile a offset (c :: text) { t with start := offset } := by
  obtain ⟨before, run, rest, rfl, hne, hbefore, hstop, hrun, hends⟩ := h
  obtain rfl : before = [] := Text.eq_nil_of_byteLength (by omega)
  refine ⟨[], c :: run, rest, rfl, List.cons_ne_nil c run, rfl, ?_, ?_, hends⟩
  · rw [hstop, hstart, Text.byteLength_cons, Nat.add_assoc]
  · intro passed d behind heq
    cases passed with
    | nil =>
      obtain ⟨rfl, rfl⟩ := List.cons.inj heq
      exact ⟨hblank, hreads⟩
    | cons e passed => exact hrun passed d behind (List.cons.inj heq).2

theorem Token.isUnread_single (hblank : Text.isBlank c = false)
    (hreads : ∀ s bytes, ¬ a.Reads compile (c :: text) s bytes)
    (hends : a.EndsUnread compile text) :
    Token.IsUnread compile a offset (c :: text) ⟨errorSymbol, offset, offset + c.utf8Size⟩ := by
  refine ⟨[], [c], text, rfl, List.cons_ne_nil c [], rfl, rfl, ?_, hends⟩
  intro passed d behind heq
  obtain ⟨rfl, hd⟩ := List.append_eq_singleton_iff.mp heq.symm |>.resolve_right (by simp)
  obtain ⟨rfl, rfl⟩ := List.cons.inj hd
  exact ⟨hblank, hreads⟩

namespace Lexed.Best

theorem empty (compile : Regex.Compiler) (a : Artifact) (offset : Nat) (text : List Char) :
    Best compile a offset text {} := by
  constructor <;> simp

theorem behind (h : x.Best compile a (offset + c.utf8Size) text) :
    x.Best compile a offset (c :: text) :=
  ⟨fun t ht herror => (h.known t ht herror).behind,
    fun t ht herror => (h.unknown t ht herror).behind⟩

theorem cons (h : x.Best compile a offset text) (isExtra : Bool)
    (hknown : t.isError = false → t.IsBest compile a offset text)
    (hunknown : t.isError = true → t.IsUnread compile a offset text) :
    (x.cons isExtra t).Best compile a offset text := by
  constructor
  · intro u hu
    rcases Lexed.mem_cons.mp hu with rfl | hu
    · exact hknown
    · exact h.known u hu
  · intro u hu
    rcases Lexed.mem_cons.mp hu with rfl | hu
    · exact hunknown
    · exact h.unknown u hu

-- A character that nothing accounts for in front, whether it joins a run or starts one.
theorem consUnknown (h : x.Best compile a (offset + c.utf8Size) text)
    (hblank : Text.isBlank c = false)
    (hreads : ∀ s bytes, ¬ a.Reads compile (c :: text) s bytes)
    (hends : a.EndsUnread compile text ∨
      ∃ t ∈ x.tokens.head?, t.isError = true ∧ t.start = offset + c.utf8Size) :
    (x.consUnknown offset (offset + c.utf8Size)).Best compile a offset (c :: text) := by
  have hone (hends : a.EndsUnread compile text) :
      (x.cons false ⟨errorSymbol, offset, offset + c.utf8Size⟩).Best compile a offset (c :: text) :=
    h.behind.cons false nofun fun _ => Token.isUnread_single hblank hreads hends
  obtain ⟨tokens, extras⟩ := x
  match tokens with
  | [] => exact hone (hends.resolve_right (by simp))
  | t :: others =>
    unfold Lexed.consUnknown
    by_cases hjoin : t.isError ∧ t.start = offset + c.utf8Size
    · simp only [if_pos hjoin]
      have hrest : Best compile a offset (c :: text) { tokens := others, extras } :=
        ⟨fun u hu => h.behind.known u (List.mem_cons_of_mem t hu),
          fun u hu => h.behind.unknown u (List.mem_cons_of_mem t hu)⟩
      have ht := h.unknown t List.mem_cons_self hjoin.1
      refine hrest.cons false (fun hclean => ?_) fun _ => ht.prolong hjoin.2 hblank hreads
      cases hclean.symm.trans hjoin.1
    · simp only [if_neg hjoin]
      exact hone (hends.resolve_right (by simpa using hjoin))

end Lexed.Best

end

namespace Lexer

variable {compile : Regex.Compiler} {a : Artifact} {lexer : Lexer}

-- A run of unread characters starts where nothing is read.
theorem scan_unread {offset : Nat} {c : Char} {text : List Char} (hblank : Text.isBlank c = false)
    (hnone : lexer.longest (c :: text) = none) :
    ∃ t ∈ (lexer.scan 0 offset (c :: text)).tokens.head?, t.isError = true ∧ t.start = offset := by
  simp only [scan, hblank, hnone, Bool.false_eq_true, if_false]
  unfold Lexed.consUnknown
  split
  · split
    · rename_i hjoin
      exact ⟨_, rfl, hjoin.1, rfl⟩
    · exact ⟨_, rfl, rfl, rfl⟩
  · exact ⟨_, rfl, rfl, rfl⟩

-- What is left of the text behind the token found last is cut into the best tokens.
theorem Lists.scan_best (hl : lexer.Lists compile a) (hsymbols : lexer.TokensOf a)
    (herror : a.isToken errorSymbol = false) (skip offset : Nat) (text : List Char) :
    (lexer.scan skip offset text).Best compile a offset text := by
  induction text generalizing skip offset with
  | nil => exact .empty compile a offset []
  | cons c text ih =>
    cases skip with
    -- the character belongs to the token found last
    | succ skip => exact (ih skip (offset + c.utf8Size)).behind
    | zero =>
      cases hblank : Text.isBlank c with
      | true =>
        simp only [scan, hblank, if_true]
        exact (ih 0 _).behind
      | false =>
        cases hfound : lexer.longest (c :: text) with
        | some found =>
          simp only [scan, hblank, hfound, Bool.false_eq_true, if_false]
          refine (ih _ _).behind.cons _ (fun _ => ?_) fun hunknown => ?_
          · exact ⟨[], c :: text, found.bytes (c :: text), rfl, rfl, rfl, hl.readsBest hfound⟩
          · have htoken := (hsymbols.longest hfound).1
            rw [show found.symbol = errorSymbol from beq_iff_eq.mp hunknown, herror] at htoken
            cases htoken
        | none =>
          simp only [scan, hblank, hfound, Bool.false_eq_true, if_false]
          refine (ih 0 _).consUnknown hblank (hl.not_reads hfound) ?_
          cases text with
          | nil => exact .inl (.inl rfl)
          | cons d text =>
            cases hnext : Text.isBlank d with
            | true => exact .inl (.inr (.inl ⟨d, rfl, hnext⟩))
            | false =>
              cases hread : lexer.longest (d :: text) with
              | some found => exact .inl (.inr (.inr ⟨_, _, (hl.readsBest hread).reads⟩))
              | none => exact .inr (scan_unread hnext hread)

end Lexer

/-- **The longest token is read.**  Where a token or an extra starts, nothing could be read that is
longer, no literal that is as long unless a literal is read, and of the literals, or else of the
patterns, that are as long none with an earlier symbol.  What no symbol accounts for is taken up to
the next white space, to the next place where something could be read or to the end. -/
theorem Language.LoadedWith.tokenize_best {compile : Regex.Compiler} {l : Language}
    (hl : l.LoadedWith compile) (text : String) :
    (l.lexer.tokenize text).Best compile l.artifact 0 text.toList :=
  have hloadable : l.Loadable := ⟨compile, hl⟩
  (Lexer.lists_ofArtifact hl.checked.lexer).scan_best hloadable.tokensOf
    hloadable.isToken_errorSymbol 0 0 text.toList

/-- A keyword, two comparisons of which one starts with the other, and two patterns that find the
same words. -/
def Artifact.words : Artifact :=
  { version := 1
    name := "words"
    symbols :=
      #[.endOfInput, .pattern "name" "[a-z]+", .pattern "word" "[a-z]+", .literal "<",
        .literal "<=", .literal "if", .rule "file" (.zeroOrMore (.symbol 1))]
    root := 6
    extras := [4]
    recovery := [] }

/-- The language of the words. -/
def Language.words : Language :=
  (ofArtifact Pattern.compile .words 0).toOption.get rfl

theorem Language.LoadedWith.tokenize_best_words :
    Language.words.LoadedWith Pattern.compile ∧
      (Language.words.lexer.tokenize "if ifs<=<é@if").Best Pattern.compile Artifact.words 0
        "if ifs<=<é@if".toList :=
  have hl : Language.words.LoadedWith Pattern.compile := ⟨.words, 0, rfl⟩
  ⟨hl, hl.tokenize_best "if ifs<=<é@if"⟩

-- The keyword is read where no longer word starts, and the run of what is unread stops before it.
example : Language.words.lexer.tokenize "if ifs<=<é@if" =
    { tokens := [⟨5, 0, 2⟩, ⟨1, 3, 6⟩, ⟨3, 8, 9⟩, ⟨errorSymbol, 9, 12⟩, ⟨5, 12, 14⟩]
      extras := [⟨4, 6, 8⟩] } := by
  decide

end GrammarKit
