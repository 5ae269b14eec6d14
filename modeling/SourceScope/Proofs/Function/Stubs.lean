import SourceScope.Proofs.Function.Inserted
import SourceScope.Proofs.Listing.Opcodes
import SourceScope.Proofs.Sample
import SourceScope.Settings

set_option autoImplicit false

namespace SourceScope

theorem Settings.minLineBytes_pos {settings : Settings} (valid : settings.check = none) :
    0 < settings.minLineBytes := by
  rw [UInt32.pos_iff_ne_zero]
  intro noBytes
  unfold check at valid
  rw [if_pos noBytes] at valid
  split at valid <;> cases valid

namespace FunctionSet

structure Stub where
  symbol : Symbol
  range : CodeRange

def Stub.function (stub : Stub) : SourceFunction := .stub stub.symbol.name [stub.range]

def stubsFrom (least : UInt32) (known : Coverage) : Option UInt32 → List Symbol → List Stub
  | _, [] => []
  | stubbed, symbol :: later =>
    if known.contains symbol.address || stubbed.any (symbol.address < ·) then
      stubsFrom least known stubbed later
    else
      let stop := symbolEnd least symbol later
      match CodeRange.ofHalfOpen? symbol.address stop with
      | none => stubsFrom least known stubbed later
      | some range => ⟨symbol, range⟩ :: stubsFrom least known (some stop) later

def symbolStubs (set : FunctionSet) (least : UInt32) (symbols : List Symbol) : List Stub :=
  stubsFrom least (Coverage.ofRanges set.ranges) none
    (symbols.mergeSort fun a b => a.address ≤ b.address)

theorem addStubs_eq (least : UInt32) (known : Coverage) (stubbed : Option UInt32)
    (symbols : List Symbol) (set : FunctionSet) :
    addStubs least known stubbed symbols set =
      set.insertAll ((stubsFrom least known stubbed symbols).map Stub.function) := by
  induction symbols generalizing stubbed set with
  | nil => rfl
  | cons symbol later ih =>
    simp only [addStubs, stubsFrom]
    split
    · exact ih stubbed set
    cases CodeRange.ofHalfOpen? symbol.address (symbolEnd least symbol later) with
    | none => exact ih stubbed set
    | some range => exact ih _ _

theorem withSymbolStubs_eq (set : FunctionSet) (least : UInt32) (symbols : List Symbol) :
    set.withSymbolStubs least symbols =
      set.insertAll ((set.symbolStubs least symbols).map Stub.function) :=
  addStubs_eq ..

theorem lt_symbolEnd {least : UInt32} (positive : 0 < least) {symbol : Symbol}
    (room : symbol.address < 0xffffffff) (later : List Symbol) :
    symbol.address < symbolEnd least symbol later := by
  refine lt_saturatingAdd room ?_
  split
  next sized => exact sized
  split
  next next found =>
    have after : symbol.address < next.address := by simpa using List.find?_some found
    rw [UInt32.lt_iff_toNat_lt] at after ⊢
    rw [UInt32.toNat_sub_of_le _ _ (UInt32.le_iff_toNat_le.2 (Nat.le_of_lt after))]
    exact Nat.sub_pos_of_lt after
  next => exact positive

section

variable {least : UInt32} {known : Coverage} {stubbed : Option UInt32} {symbols : List Symbol}

theorem stubsFrom_range {stub : Stub} (member : stub ∈ stubsFrom least known stubbed symbols) :
    stub.range.first ≤ stub.range.last ∧ ∀ stop ∈ stubbed, stop ≤ stub.range.first := by
  fun_induction stubsFrom least known stubbed symbols with
  | case1 => cases member
  | case2 stubbed symbol later shared ih => exact ih member
  | case3 stubbed symbol later free stop empty ih => exact ih member
  | case4 stubbed symbol later free stop range made ih =>
    obtain ⟨nonempty, first, upTo⟩ := CodeRange.of_ofHalfOpen? made
    have past : ∀ earlier ∈ stubbed, earlier ≤ symbol.address := by
      rintro earlier rfl
      have apart : known.contains symbol.address = false ∧ earlier ≤ symbol.address := by
        simpa using free
      exact apart.2
    rcases List.mem_cons.1 member with rfl | among
    · rw [first]
      exact ⟨(upTo symbol.address).2 nonempty, past⟩
    · obtain ⟨hasCode, after⟩ := ih among
      refine ⟨hasCode, fun earlier before => ?_⟩
      have below := UInt32.le_of_lt (Std.lt_of_le_of_lt (past earlier before) nonempty)
      exact UInt32.le_trans below (after stop rfl)

theorem stubsFrom_ascending :
    (stubsFrom least known stubbed symbols).Pairwise fun a b => a.range.last < b.range.first := by
  fun_induction stubsFrom least known stubbed symbols with
  | case1 => exact List.Pairwise.nil
  | case2 stubbed symbol later shared ih => exact ih
  | case3 stubbed symbol later free stop empty ih => exact ih
  | case4 stubbed symbol later free stop range made ih =>
    obtain ⟨-, -, upTo⟩ := CodeRange.of_ofHalfOpen? made
    refine List.pairwise_cons.2 ⟨fun stub among => ?_, ih⟩
    have last := (upTo range.last).1 (UInt32.le_refl _)
    exact Std.lt_of_lt_of_le last ((stubsFrom_range among).2 stop rfl)

theorem stubsFrom_takes (positive : 0 < least) (known : Coverage) (stubbed : Option UInt32)
    (ascending : symbols.Pairwise fun a b => a.address ≤ b.address) {s : Symbol}
    (member : s ∈ symbols) (room : s.address < 0xffffffff) :
    known.contains s.address = true ∨ (∃ stop ∈ stubbed, s.address < stop) ∨
      ∃ stub ∈ stubsFrom least known stubbed symbols, stub.range.contains s.address = true := by
  fun_induction stubsFrom least known stubbed symbols with
  | case1 => cases member
  | case2 stubbed symbol later shared ih =>
    rcases List.mem_cons.1 member with rfl | among
    · rcases Bool.or_eq_true_iff.1 shared with inKnown | inStub
      · exact .inl inKnown
      · exact .inr (.inl (by simpa [Option.any_eq_true] using inStub))
    · exact ih ascending.tail among
  | case3 stubbed symbol later free stop empty ih =>
    rcases List.mem_cons.1 member with rfl | among
    · have nonempty := lt_symbolEnd positive room later
      exact absurd (CodeRange.ofHalfOpen?_eq_none_iff.1 empty) (UInt32.not_le.2 nonempty)
    · exact ih ascending.tail among
  | case4 stubbed symbol later free stop range made ih =>
    obtain ⟨nonempty, start, upTo⟩ := CodeRange.of_ofHalfOpen? made
    obtain ⟨first, ascending⟩ := List.pairwise_cons.1 ascending
    -- the symbols come in order, so those before the end of the new stub are in it
    have inStub (after : symbol.address ≤ s.address) (before : s.address < stop) :
        range.contains s.address = true := by
      simp [CodeRange.contains, start, after, (upTo s.address).2 before]
    rcases List.mem_cons.1 member with rfl | among
    · exact .inr (.inr ⟨_, List.mem_cons_self, inStub (UInt32.le_refl _) nonempty⟩)
    rcases ih ascending among with inKnown | ⟨_, here, before⟩ | ⟨stub, further, inside⟩
    · exact .inl inKnown
    · cases here
      exact .inr (.inr ⟨_, List.mem_cons_self, inStub (first s among) before⟩)
    · exact .inr (.inr ⟨stub, List.mem_cons_of_mem _ further, inside⟩)

end

theorem withSymbolStubs_covered {least : UInt32} (positive : 0 < least) (set : FunctionSet)
    {symbols : List Symbol} {s : Symbol} (member : s ∈ symbols) (room : s.address < 0xffffffff) :
    Covered (set.withSymbolStubs least symbols).ranges s.address := by
  rw [withSymbolStubs_eq]
  rcases stubsFrom_takes positive (Coverage.ofRanges set.ranges) none
      (mergeSort_ascending Symbol.address symbols) (List.mem_mergeSort.2 member) room with
    inKnown | ⟨_, missing, -⟩ | ⟨stub, added, inside⟩
  · obtain ⟨r, inSet, inside⟩ := Coverage.contains_ofRanges inKnown
    exact ⟨r, mem_ranges_insertAll set _ (.inl inSet), inside⟩
  · cases missing
  · refine ⟨stub.range, mem_ranges_insertAll set _ (.inr ?_), inside⟩
    exact ⟨stub.function, List.mem_map_of_mem added, List.mem_singleton.2 rfl⟩

def completed (set : FunctionSet) (settings : Settings) (disassemble : Disassembler)
    (binary : Binary) : FunctionSet :=
  ((set.withSymbolStubs settings.minLineBytes binary.functionSymbols).withDriver settings.driverName
    (Listing.opcodes disassemble binary.code)).2

def additions (set : FunctionSet) (settings : Settings) (disassemble : Disassembler)
    (binary : Binary) : List SourceFunction :=
  (set.symbolStubs settings.minLineBytes binary.functionSymbols).map Stub.function ++
    [.stub settings.driverName
      (uncovered
        (Coverage.ofRanges (set.withSymbolStubs settings.minLineBytes binary.functionSymbols).ranges)
        none (Listing.opcodes disassemble binary.code))]

theorem completed_eq (set : FunctionSet) (settings : Settings) (disassemble : Disassembler)
    (binary : Binary) :
    set.completed settings disassemble binary =
      set.insertAll (set.additions settings disassemble binary) := by
  rw [additions, insertAll_append, ← withSymbolStubs_eq]
  rfl

theorem completed_covers_code (set : FunctionSet) (settings : Settings)
    (disassemble : Disassembler) {binary : Binary} {s : CodeSection} (inCode : s ∈ binary.code)
    {o : Opcode} (member : o ∈ disassemble s.origin s.data) :
    Covered (set.completed settings disassemble binary).ranges o.address := by
  obtain ⟨p, listed, same⟩ := Listing.exists_opcodes inCode member
  rw [← same]
  exact withDriver_covered _ _ _ (Listing.opcodes_ascending disassemble binary.code) listed

/-- Every address that is disassembled is in a function, and so is every function symbol that has
room for code. The stubs that are inserted for symbols have code, and no two of them share any. -/
theorem completed_covers (set : FunctionSet) {settings : Settings} (valid : settings.check = none)
    (disassemble : Disassembler) (binary : Binary) :
    (∀ s ∈ binary.code, ∀ o ∈ disassemble s.origin s.data,
      Covered (set.completed settings disassemble binary).ranges o.address) ∧
    (∀ s ∈ binary.functionSymbols, s.address < 0xffffffff →
      Covered (set.completed settings disassemble binary).ranges s.address) ∧
    set.withSymbolStubs settings.minLineBytes binary.functionSymbols =
      set.insertAll
        ((set.symbolStubs settings.minLineBytes binary.functionSymbols).map Stub.function) ∧
    (∀ stub ∈ set.symbolStubs settings.minLineBytes binary.functionSymbols,
      stub.range.first ≤ stub.range.last) ∧
    (set.symbolStubs settings.minLineBytes binary.functionSymbols).Pairwise fun a b =>
      a.range.overlaps b.range = false := by
  refine ⟨?code, ?symbols, withSymbolStubs_eq set _ _, ?nonempty, ?apart⟩
  case code =>
    exact fun s inCode o member => completed_covers_code set settings disassemble inCode member
  case symbols =>
    intro s member room
    obtain ⟨r, inSet, inside⟩ :=
      withSymbolStubs_covered (Settings.minLineBytes_pos valid) set member room
    exact ⟨r, mem_ranges_insert _ _ (.inl inSet), inside⟩
  case nonempty => exact fun stub member => (stubsFrom_range member).1
  case apart =>
    refine stubsFrom_ascending.imp fun {a b} before => ?_
    simp [CodeRange.overlaps, UInt32.not_le.2 before]

open Sample in
def mixedSymbols : Binary :=
  code 0x300 (nops 1) [function "end" 0xffffffff 4, function "inner" 0x10c 8,
    function "known" 0x104 0, function "outer" 0x108 8, function "late" 0x200 0] []

def oneKnown : FunctionSet := ⟨[⟨"known", [⟨0x100, 0x107, false⟩], none, [], none, none, false⟩], []⟩

example : (oneKnown.symbolStubs 4 mixedSymbols.functionSymbols).map
    (fun stub => (stub.symbol.name, stub.range)) =
      [("outer", ⟨0x108, 0x10f, false⟩), ("late", ⟨0x200, 0xfffffffe, false⟩)] := by
  cbv

theorem completed_covers_mixedSymbols :
    Settings.default.check = none ∧
    Covered (oneKnown.completed .default Opcode.sweep mixedSymbols).ranges 0x300 ∧
    Covered (oneKnown.completed .default Opcode.sweep mixedSymbols).ranges 0x10c := by
  have valid : Settings.default.check = none := by rfl
  obtain ⟨code, symbols, -⟩ := completed_covers oneKnown valid Opcode.sweep mixedSymbols
  refine ⟨valid, ?_, ?_⟩
  · exact code ⟨".text", 0x300, [0, 0xbf]⟩ List.mem_cons_self (Opcode.narrow 0x300 0xbf00)
      List.mem_cons_self
  · exact symbols ⟨"inner", "inner", 0x10c, 8, true⟩ (by decide) (by decide)

end FunctionSet

end SourceScope
