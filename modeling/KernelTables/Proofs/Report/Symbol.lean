import Mathlib.Data.List.Chain
import KernelTables.Proofs.Report.Effect
import KernelTables.Proofs.Symbol.Lines

/-!
# A symbol report can be checked by its own lines

Every symbol is reported by two lines, its distance from the symbol before and its entry.  Whoever
reads the report finds the addresses in the entry lines (`shownAddress?`) and can recompute every
distance from them.

* `AddressDelta.measures_between` — one distance, read as a signed number, leads from the one
  address to the other;
* `records_linked` — **the step of a report**: what it keeps of a symbol is the address that it
  shows, so the next distance starts from an address that the reader has seen;
* `run_of_readable` — the whole report, which is the same whatever the reporter has seen before;
* `exists_linked_pairs` — all of it for a table, in terms of lines alone.
-/

namespace KernelTables

/-! ## One distance -/

/-- Whether a distance line leads from address `a` to address `b`: it is empty if there is no
address to start from, and otherwise a signed number, with a sign exactly if it leads downward. -/
structure Measures (a b : Nat) (delta : Bytes) : Prop where
  /-- There is no distance from a hidden address, and there is one from any other. -/
  empty : delta = [] ↔ a = 0
  /-- The distance is exact. -/
  exact : a ≠ 0 → ∃ d : Int, Numeral.signedHex? delta = some d ∧ a + d = b ∧ (d < 0 ↔ b < a)
  /-- The sign shows the direction. -/
  sign : utf8 "-" <+: delta ↔ b < a

theorem not_sign_prefix_prefixedHex (n : Nat) : ¬utf8 "-" <+: Numeral.prefixedHex n := by
  rintro ⟨rest, h⟩
  have hhead : some (0x2D : UInt8) = some 0x30 := congrArg List.head? h
  exact absurd hhead (by decide)

theorem prefixedHex_ne_nil (n : Nat) : Numeral.prefixedHex n ≠ [] := by
  intro h
  have hhead : some (0x30 : UInt8) = none := congrArg List.head? h
  exact absurd hhead (by decide)

/-- **The distance between two addresses** leads from the one to the other. -/
theorem AddressDelta.measures_between (a b : UInt64) :
    Measures a.toNat b.toNat (between a b).text := by
  rw [between]
  by_cases ha : a = 0
  · rw [if_pos ha, ha]
    refine ⟨by simp [text], fun h => absurd rfl h, ?_⟩
    simp [text, utf8]
  · have ha' : a.toNat ≠ 0 := fun h => ha (UInt64.toNat_inj.mp h)
    rw [if_neg ha]
    by_cases hle : a ≤ b
    · have hle' : a.toNat ≤ b.toNat := UInt64.le_iff_toNat_le.mp hle
      rw [if_pos hle, text, UInt64.toNat_sub_of_le _ _ hle]
      refine ⟨?_, fun _ => ⟨_, Numeral.signedHex?_prefixedHex _, by omega, by omega⟩, ?_⟩
      · simp [prefixedHex_ne_nil, ha']
      · simp [not_sign_prefix_prefixedHex, hle']
    · have hlt : b.toNat < a.toNat := by
        rw [UInt64.le_iff_toNat_le] at hle
        omega
      have hsub := UInt64.toNat_sub_of_le a b (UInt64.le_iff_toNat_le.mpr hlt.le)
      rw [if_neg hle, text, hsub]
      refine ⟨?_, fun _ => ⟨_, Numeral.signedHex?_neg _, by omega, by omega⟩, ?_⟩
      · simp [prefixedHex_ne_nil, ha']
      · simp [hlt]

/-- From an address that is known a distance leads to one address only. -/
theorem Measures.end_unique {a b c : Nat} {delta : Bytes} (hb : Measures a b delta)
    (hc : Measures a c delta) (ha : a ≠ 0) : b = c := by
  obtain ⟨d, hd, hab, -⟩ := hb.exact ha
  obtain ⟨d', hd', hac, -⟩ := hc.exact ha
  obtain rfl : d = d' := Option.some.inj (hd.symm.trans hd')
  omega

/-- A distance to an address comes from one address only, or from none. -/
theorem Measures.start_unique {a b c : Nat} {delta : Bytes} (ha : Measures a c delta)
    (hb : Measures b c delta) : a = b := by
  have hzero : a = 0 ↔ b = 0 := ha.empty.symm.trans hb.empty
  by_cases hstart : a = 0
  · rw [hstart, hzero.mp hstart]
  · obtain ⟨d, hd, hac, -⟩ := ha.exact hstart
    obtain ⟨d', hd', hbc, -⟩ := hb.exact (mt hzero.mpr hstart)
    obtain rfl : d = d' := Option.some.inj (hd.symm.trans hd')
    omega

/-- Equal distances from an address lead to the same address, unless it is zero. -/
theorem AddressDelta.end_inj {a b c : UInt64} (ha : a ≠ 0)
    (h : (between a b).text = (between a c).text) : b = c := by
  have ha' : a.toNat ≠ 0 := fun hzero => ha (UInt64.toNat_inj.mp hzero)
  have hb := measures_between a b
  rw [h] at hb
  exact UInt64.toNat_inj.mp (hb.end_unique (measures_between a c) ha')

/-- Equal distances to an address come from the same address. -/
theorem AddressDelta.start_inj {a b c : UInt64} (h : (between a c).text = (between b c).text) :
    a = b := by
  have ha := measures_between a c
  rw [h] at ha
  exact UInt64.toNat_inj.mp (ha.start_unique (measures_between b c))

theorem AddressDelta.newline_notMem_text (delta : AddressDelta) : newline ∉ delta.text :=
  SymbolRecord.newline_notMem_deltaText ⟨delta, 0, 0, [], [], .modules, none⟩

/-! ## Reading an entry line -/

/-- The address in the first column of an entry line. -/
def shownAddress? (line : Bytes) : Option Nat :=
  ((utf8 "addr=").isPrefixOf? (line.takeWhile (· != 0x20))).bind Numeral.prefixedHex?

namespace SymbolRecord

/-- The address can be read off the entry line. -/
theorem shownAddress?_entryText (record : SymbolRecord) :
    shownAddress? record.entryText = some record.address.toNat := by
  have hcolumn : ∀ b ∈ column "addr" (Numeral.prefixedHex record.address.toNat),
      (b != 0x20) = true := by
    intro b hb
    have hspace : 0x20 ∉ column "addr" (Numeral.prefixedHex record.address.toNat) :=
      notMem_column (by decide) (by decide)
        (Numeral.notMem_prefixedHex (by decide) (by decide) (by decide) _)
    simpa using fun h : b = 0x20 => hspace (h ▸ hb)
  have htake : record.entryText.takeWhile (· != 0x20) =
      column "addr" (Numeral.prefixedHex record.address.toNat) := by
    rw [entryText, row_cons_cons, List.append_assoc, List.takeWhile_append_of_pos hcolumn]
    exact List.append_nil _
  have hlabel : column "addr" (Numeral.prefixedHex record.address.toNat) =
      utf8 "addr=" ++ Numeral.prefixedHex record.address.toNat := rfl
  rw [shownAddress?, htake, hlabel, Numeral.isPrefixOf?_append, Option.bind_some,
    Numeral.prefixedHex?_prefixedHex]

/-- Whether a record's distance is the one from the record before. -/
def Follows (before record : SymbolRecord) : Prop :=
  record.delta = .between before.address record.address

/-- Distances between records are distances between the addresses in their lines. -/
theorem Follows.measures {before record : SymbolRecord} (h : before.Follows record) :
    Measures before.address.toNat record.address.toNat record.deltaText := by
  rw [deltaText, h]
  exact AddressDelta.measures_between before.address record.address

/-- The two lines of a record. -/
def lines (record : SymbolRecord) : List Bytes := [record.deltaText, record.entryText]

end SymbolRecord

/-! ## The step of a report -/

namespace SymbolReporter

/-- What a report does with a symbol, on a stream that takes everything. -/
def effect (reporter : SymbolReporter) (symbol : Symbol) : Effect SymbolReporter where
  reporter := (reporter.compose symbol).1
  lines := (reporter.compose symbol).2.lines
  outcome := .emitted

/-- No symbol's lines are too long. -/
theorem visit_of_unlimited (reporter : SymbolReporter) {number : Nat} (hnumber : number ≠ 0)
    (symbol : Symbol) {stream : Stream} (hroom : stream.sink.room = none) :
    reporter.visit number (some symbol) stream = (reporter.effect symbol).on stream := by
  have hdelta := SymbolRecord.length_deltaText_le (reporter.compose symbol).2
  have hentry : (reporter.compose symbol).2.entryText.length ≤ lineCapacity :=
    SymbolRecord.length_entryText_le (Field.length_contents_le symbol.name)
      (Field.length_contents_le symbol.moduleName)
  have hroom' : (stream.append [(reporter.compose symbol).2.deltaText]).sink.room = none := hroom
  rw [visit, if_neg hnumber]
  simp only [Stream.print_of_unlimited hroom hdelta, Visit.printing,
    Stream.print_of_unlimited hroom' hentry, Stream.append_append]
  rfl

/-- The records of a sequence of symbols. -/
def records : SymbolReporter → List Symbol → List SymbolRecord
  | _, [] => []
  | reporter, symbol :: symbols =>
    (reporter.compose symbol).2 :: records (reporter.compose symbol).1 symbols

@[simp] theorem length_records (reporter : SymbolReporter) (symbols : List Symbol) :
    (records reporter symbols).length = symbols.length := by
  induction symbols generalizing reporter with
  | nil => rfl
  | cons symbol symbols ih => simp [records, ih]

theorem allLines_sequence_effect (reporter : SymbolReporter) (symbols : List Symbol) :
    Effect.allLines (Effect.sequence effect reporter symbols) =
      (records reporter symbols).flatMap SymbolRecord.lines := by
  induction symbols generalizing reporter with
  | nil => rfl
  | cons symbol symbols ih =>
    rw [records, List.flatMap_cons, ← ih, Effect.allLines_cons]
    rfl

theorem tally_sequence_effect (reporter : SymbolReporter) (symbols : List Symbol) (stats : Stats) :
    Effect.tally stats (Effect.sequence effect reporter symbols) =
      { stats with visited := stats.visited + symbols.length
                   emitted := stats.emitted + symbols.length } := by
  induction symbols generalizing reporter stats with
  | nil => rfl
  | cons symbol symbols ih =>
    have houtcome : (reporter.effect symbol).outcome = .emitted := rfl
    rw [Effect.tally_cons, houtcome, ih, Stats.tally, List.length_cons]
    simp only [Nat.add_assoc, Nat.add_comm 1]

/-- **A report links every symbol to the one before**, if no address is hidden by anything but its
being zero. -/
theorem records_linked (reporter : SymbolReporter) {symbols : List Symbol}
    (h : ∀ symbol ∈ symbols, symbol.shownValue = symbol.value) :
    (records reporter symbols).IsChain SymbolRecord.Follows ∧
      ∀ first ∈ (records reporter symbols).head?,
        first.delta = .between reporter.lastValue first.address := by
  induction symbols generalizing reporter with
  | nil => exact ⟨List.isChain_nil, by simp [records]⟩
  | cons symbol symbols ih =>
    have hsymbol := h symbol List.mem_cons_self
    obtain ⟨hchain, hfirst⟩ := ih (reporter.compose symbol).1
      fun s hs => h s (List.mem_cons_of_mem symbol hs)
    refine ⟨?_, ?_⟩
    · rw [records, List.isChain_cons]
      exact ⟨fun next hnext => hfirst next hnext, hchain⟩
    · intro first hf
      obtain rfl : (reporter.compose symbol).2 = first := Option.some.inj hf
      simp only [compose, hsymbol]

/-! ## The whole report -/

theorem visitEntry_of_unlimited (reporter : SymbolReporter) (symbol : Symbol) {number : Nat}
    (hnumber : number ≠ 0) {stream : Stream} (hroom : stream.sink.room = none) :
    reporter.visitEntry (.ok symbol, number) stream = (reporter.effect symbol).on stream := by
  rw [visitEntry, reporter.visit_of_unlimited hnumber symbol hroom]
  rfl

/-- The numbered symbols behind the column heads, on a stream that takes everything. -/
theorem visitAll_of_unlimited (reporter : SymbolReporter) (symbols : List Symbol) {stream : Stream}
    (hroom : stream.sink.room = none) (stats : Stats) :
    Run.visitAll visitEntry reporter stream stats ((symbols.map .ok).zipIdx 1) =
      ⟨Effect.last (fun reporter entry => effect reporter entry.1) reporter (symbols.zipIdx 1),
        stream.append ((records reporter symbols).flatMap SymbolRecord.lines),
        .ok { stats with visited := stats.visited + symbols.length
                         emitted := stats.emitted + symbols.length }⟩ := by
  have hvisit : ∀ entry ∈ symbols.zipIdx 1, ∀ (reporter : SymbolReporter) (stream : Stream),
      stream.sink.room = none →
      reporter.visitEntry (Prod.map .ok id entry) stream = (reporter.effect entry.1).on stream := by
    intro entry hentry reporter stream hroom
    have hnumber : entry.2 ≠ 0 := by
      have := List.le_snd_of_mem_zipIdx hentry
      omega
    exact reporter.visitEntry_of_unlimited entry.1 hnumber hroom
  have heffects : Effect.sequence (fun reporter entry => effect reporter entry.1) reporter
      (symbols.zipIdx 1) = Effect.sequence effect reporter symbols := by
    rw [← Effect.sequence_map effect Prod.fst, List.zipIdx_map_fst]
  rw [List.zipIdx_map, Run.visitAll_map, Run.visitAll_of_unlimited hvisit reporter hroom stats,
    heffects, allLines_sequence_effect, tally_sequence_effect]

/-- **The report of a table that can be read**, on a stream that takes everything: the column heads
and the two lines of every symbol.  What the reporter has seen before makes no difference. -/
theorem run_of_readable (reporter : SymbolReporter) {table : Table} (h : table.Readable)
    {stream : Stream} (hroom : stream.sink.room = none) :
    (reporter.run table stream).stream =
        stream.append (SymbolRecord.header :: (records {} table.yielded).flatMap SymbolRecord.lines) ∧
      (reporter.run table stream).result =
        .ok { visited := table.yielded.length, emitted := table.yielded.length } := by
  have hheads : Run.step .symbolHeader (reporter.reset.visit 0 none stream) =
      ⟨{}, stream.append [SymbolRecord.header], .ok .headerOnly⟩ := by
    rw [visit, if_pos rfl, Stream.writeLine_of_unlimited hroom]
    rfl
  have hroom' : (stream.append [SymbolRecord.header]).sink.room = none := by
    rw [Stream.room_append, hroom]
  have htally : Stats.tally {} .headerOnly = {} := rfl
  rw [run, hheads, Table.symbols_of_readable h]
  simp only [htally, visitAll_of_unlimited _ _ hroom', Stream.append_append, List.singleton_append,
    Nat.zero_add, and_self]

end SymbolReporter

/-! ## The report of a table, in terms of lines -/

/-- The entry line of a symbol. -/
def Symbol.entryLine (symbol : Symbol) : Bytes := (SymbolReporter.compose {} symbol).2.entryText

theorem Symbol.shownAddress?_entryLine (symbol : Symbol) :
    shownAddress? symbol.entryLine = some symbol.shownValue.toNat :=
  SymbolRecord.shownAddress?_entryText _

theorem Symbol.Plain.newline_notMem_entryLine {symbol : Symbol} (h : symbol.Plain) :
    newline ∉ symbol.entryLine :=
  SymbolRecord.newline_notMem_entryText h.code h.name h.moduleName

/-- A symbol of the core kernel.  Its address may be shown unless it is zero. -/
def coreSymbol (address : UInt64) : Symbol := TableEntry.toSymbol ⟨address, 0x54, ['a'], []⟩ {}

theorem SymbolReporter.map_entryText_records (reporter : SymbolReporter) (symbols : List Symbol) :
    (reporter.records symbols).map SymbolRecord.entryText = symbols.map Symbol.entryLine := by
  induction symbols generalizing reporter with
  | nil => rfl
  | cons symbol symbols ih =>
    rw [records, List.map_cons, List.map_cons, ih]
    rfl

/-- Whether a distance line leads from the address in one entry line to the one in another. -/
def Linked (before delta entry : Bytes) : Prop :=
  ∃ a b, shownAddress? before = some a ∧ shownAddress? entry = some b ∧ Measures a b delta

theorem SymbolRecord.Follows.linked {before record : SymbolRecord} (h : before.Follows record) :
    Linked before.entryText record.deltaText record.entryText :=
  ⟨_, _, before.shownAddress?_entryText, record.shownAddress?_entryText, h.measures⟩

namespace Table

/-- The address of a symbol of a table is hidden only if it is zero. -/
theorem shownValue_toSymbol (entry : TableEntry) (cursor : Cursor) :
    (entry.toSymbol cursor).shownValue = entry.address := by
  simp only [Symbol.shownValue, TableEntry.toSymbol, bne_iff_ne, ne_eq, ite_not]
  split
  next hzero => exact hzero.symm
  next => rfl

/-- Every symbol of a table is made of one of its entries. -/
theorem exists_entry_of_mem_yielded {table : Table} {symbol : Symbol}
    (h : symbol ∈ table.yielded) : ∃ entry ∈ table.entries, ∃ cursor,
      symbol = entry.toSymbol cursor := by
  obtain ⟨i, hi, rfl⟩ := List.getElem_of_mem h
  simp only [yielded_eq, TableEntry.getElem_symbolsFrom]
  exact ⟨_, List.get_mem _ _, _, rfl⟩

theorem plain_of_mem_yielded {table : Table} {symbol : Symbol} (h : symbol ∈ table.yielded) :
    symbol.Plain := by
  obtain ⟨entry, hentry, cursor, rfl⟩ := exists_entry_of_mem_yielded h
  exact (plain_of_mem_entries hentry).toSymbol cursor

theorem shownValue_of_mem_yielded {table : Table} {symbol : Symbol} (h : symbol ∈ table.yielded) :
    symbol.shownValue = symbol.value := by
  obtain ⟨entry, -, cursor, rfl⟩ := exists_entry_of_mem_yielded h
  exact shownValue_toSymbol entry cursor

/-- The entry lines show the addresses of the table. -/
theorem map_shownAddress?_entryLine (table : Table) :
    (table.yielded.map Symbol.entryLine).map shownAddress? =
      table.entries.map fun entry => some entry.address.toNat := by
  rw [List.map_map, yielded_eq]
  refine TableEntry.map_symbolsFrom (fun entry cursor => ?_) 0 {} table.entries
  rw [Function.comp_apply, Symbol.shownAddress?_entryLine, shownValue_toSymbol]

/-- **The report of a table checks itself.**  On a stream that takes everything, and whatever the
reporter has seen before, it is the column heads and a pair of lines for each symbol in the order of
the table, a distance and an entry.  The entries show the addresses of the table; the first distance
is empty, and every later one leads from the address in the entry line before it to the one in its
own. -/
theorem exists_linked_pairs {table : Table} (h : table.Readable) :
    ∃ pairs : List (Bytes × Bytes),
      (∀ (reporter : SymbolReporter) (stream : Stream), stream.sink.room = none →
        (reporter.run table stream).stream.text = stream.text ++
            ofLines (SymbolRecord.header :: pairs.flatMap fun pair => [pair.1, pair.2]) ∧
          (reporter.run table stream).result =
            .ok { visited := pairs.length, emitted := pairs.length }) ∧
      (∀ pair ∈ pairs, newline ∉ pair.1 ∧ newline ∉ pair.2) ∧
      pairs.map Prod.snd = table.yielded.map Symbol.entryLine ∧
      pairs.map (fun pair => shownAddress? pair.2) =
        table.entries.map (fun entry => some entry.address.toNat) ∧
      (∀ first ∈ pairs.head?, first.1 = []) ∧
      pairs.IsChain fun before pair => Linked before.2 pair.1 pair.2 := by
  let records := SymbolReporter.records {} table.yielded
  have hentries : records.map SymbolRecord.entryText = table.yielded.map Symbol.entryLine :=
    SymbolReporter.map_entryText_records {} table.yielded
  obtain ⟨hchain, hfirst⟩ := SymbolReporter.records_linked {} fun symbol hsymbol =>
    shownValue_of_mem_yielded hsymbol
  refine ⟨records.map fun record => (record.deltaText, record.entryText), ?_, ?_, ?_, ?_, ?_, ?_⟩
  · intro reporter stream hroom
    obtain ⟨hstream, hresult⟩ := reporter.run_of_readable h hroom
    rw [hstream, hresult, Stream.text_append, List.flatMap_map, List.length_map,
      SymbolReporter.length_records]
    exact ⟨rfl, rfl⟩
  · intro pair hpair
    obtain ⟨record, hrecord, rfl⟩ := List.mem_map.mp hpair
    have hentry : record.entryText ∈ table.yielded.map Symbol.entryLine :=
      hentries ▸ List.mem_map_of_mem hrecord
    obtain ⟨symbol, hsymbol, hline⟩ := List.mem_map.mp hentry
    exact ⟨record.newline_notMem_deltaText,
      hline ▸ (plain_of_mem_yielded hsymbol).newline_notMem_entryLine⟩
  · rw [List.map_map]
    exact hentries
  · rw [List.map_map, ← table.map_shownAddress?_entryLine, ← hentries, List.map_map]
    rfl
  · intro first hhead
    rw [List.head?_map] at hhead
    obtain ⟨record, hrecord, rfl⟩ := Option.map_eq_some_iff.mp hhead
    rw [SymbolRecord.deltaText, hfirst record hrecord]
    rfl
  · rw [List.isChain_map]
    exact hchain.imp fun before record hfollows => hfollows.linked

/-- A table that goes up and down and hides an address, read with an interruption. -/
def upAndDown : Table :=
  [.data (utf8 "1000 T a\n3000 T b\n20"), .interrupted,
    .data (utf8 "00 t c\n0 T d\nffffffffffffffff T e\t[m]\n1 T f")]

theorem exists_linked_pairs_upAndDown :
    upAndDown.Readable ∧ ∃ pairs : List (Bytes × Bytes),
      (∀ (reporter : SymbolReporter) (stream : Stream), stream.sink.room = none →
        (reporter.run upAndDown stream).stream.text = stream.text ++
          ofLines (SymbolRecord.header :: pairs.flatMap fun pair => [pair.1, pair.2])) ∧
      pairs.map (fun pair => shownAddress? pair.2) =
        [some 0x1000, some 0x3000, some 0x2000, some 0, some 0xffffffffffffffff, some 1] ∧
      pairs.IsChain fun before pair => Linked before.2 pair.1 pair.2 := by
  have hreadable : upAndDown.Readable := by
    intro message h
    simp [upAndDown] at h
  have haddresses : upAndDown.entries.map (fun entry => some entry.address.toNat) =
      [some 0x1000, some 0x3000, some 0x2000, some 0, some 0xffffffffffffffff, some 1] := by
    decide
  obtain ⟨pairs, hrun, -, -, hshown, -, hchain⟩ := exists_linked_pairs hreadable
  exact ⟨hreadable, pairs, fun reporter stream hroom => (hrun reporter stream hroom).1,
    hshown.trans haddresses, hchain⟩

end Table

end KernelTables
