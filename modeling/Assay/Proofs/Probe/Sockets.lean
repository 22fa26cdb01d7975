import Assay.Probe.Port
import Assay.Proofs.Text.Lines
import Assay.Proofs.Unit.Written

namespace Assay.PortStep

open Text (Blanks Word cutAtLast isBlank isBlank_digit isBlank_of_all linesOf_ended
  sameIgnoringCase wordsOf wordsOf_append_blanks wordsOf_blanks wordsOf_word)

section Digits

variable {c : Char} {k n : Nat} {capital : Bool}

/-- A hexadecimal digit. -/
def hexChar (capital : Bool) (d : Nat) : Char :=
  if capital then d.digitChar.toUpper else d.digitChar

/-- The last digits of a number in hexadecimal, a fixed number of them. -/
def hexDigits (capital : Bool) : Nat → Nat → List Char
  | 0, _ => []
  | k + 1, n => hexDigits capital k (n / 16) ++ [hexChar capital (n % 16)]

theorem hexDigit?_hexChar : ∀ capital, ∀ d < 16, hexDigit? (hexChar capital d) = some d := by
  decide +kernel

theorem toLower_hexChar : ∀ capital, ∀ d < 16, (hexChar capital d).toLower = hexChar false d := by
  decide +kernel

theorem hexChar_plain : ∀ capital, ∀ d < 16, isBlank (hexChar capital d) = false ∧
    hexChar capital d ≠ ':' ∧ hexChar capital d ≠ '+' := by
  decide +kernel

theorem mem_hexDigits (h : c ∈ hexDigits capital k n) : ∃ d < 16, c = hexChar capital d := by
  induction k generalizing n with
  | zero => cases h
  | succ k ih =>
    rcases List.mem_append.mp h with hinit | hlast
    · exact ih hinit
    · exact ⟨n % 16, Nat.mod_lt n (by decide), List.mem_singleton.mp hlast⟩

theorem isBlank_of_mem_hexDigits (h : c ∈ hexDigits capital k n) : isBlank c = false := by
  obtain ⟨d, hd, rfl⟩ := mem_hexDigits h
  exact (hexChar_plain capital d hd).1

theorem length_hexDigits (capital : Bool) (k n : Nat) : (hexDigits capital k n).length = k := by
  induction k generalizing n with
  | zero => rfl
  | succ k ih => rw [hexDigits, List.length_append, ih, List.length_singleton]

theorem map_toLower_hexDigits (capital : Bool) (k n : Nat) :
    (hexDigits capital k n).map Char.toLower = hexDigits false k n := by
  induction k generalizing n with
  | zero => rfl
  | succ k ih =>
    have hlast := toLower_hexChar capital (n % 16) (Nat.mod_lt n (by decide))
    rw [hexDigits, List.map_append, ih, List.map_singleton, hlast, hexDigits]

/-- One more digit of a number. -/
def readDigit (base : Nat) (read : Option Nat) (c : Char) : Option Nat :=
  read.bind fun n => (hexDigit? c).bind fun d => if d < base then some (n * base + d) else none

theorem readBase?_eq {cs : List Char} (base : Nat) (h : cs ≠ []) :
    readBase? base cs = cs.foldl (readDigit base) (some 0) := if_neg (by simpa using h)

theorem foldl_hexDigits (capital : Bool) (k n : Nat) :
    (hexDigits capital k n).foldl (readDigit 16) (some 0) = some (n % 16 ^ k) := by
  induction k generalizing n with
  | zero => rw [Nat.pow_zero, Nat.mod_one, hexDigits, List.foldl_nil]
  | succ k ih =>
    have hlast : n % 16 < 16 := Nat.mod_lt n (by decide)
    have hvalue : n / 16 % 16 ^ k * 16 + n % 16 = n % 16 ^ (k + 1) := by
      rw [Nat.pow_succ', Nat.mod_mul, Nat.mul_comm, Nat.add_comm]
    rw [hexDigits, List.foldl_append, ih, List.foldl_cons, List.foldl_nil, readDigit,
      Option.bind_some, hexDigit?_hexChar capital _ hlast, Option.bind_some, if_pos hlast, hvalue]

theorem hexDigits_ne_nil (hk : 0 < k) : hexDigits capital k n ≠ [] := by
  rw [ne_eq, ← List.length_eq_zero_iff, length_hexDigits]
  omega

theorem readBase?_hexDigits (capital : Bool) (n : Nat) (hk : 0 < k) :
    readBase? 16 (hexDigits capital k n) = some (n % 16 ^ k) := by
  rw [readBase?_eq 16 (hexDigits_ne_nil hk), foldl_hexDigits]

theorem state_eq_listen (capital : Bool) (state : UInt8) :
    sameIgnoringCase (.ofList (hexDigits capital 2 state.toNat)) listenState ↔ state = 0x0A := by
  have hlisten : listenState.toList.map Char.toLower = hexDigits false 2 10 := by decide +kernel
  rw [sameIgnoringCase, String.toList_ofList, map_toLower_hexDigits, hlisten, beq_iff_eq]
  constructor
  · intro h
    have hvalue := foldl_hexDigits false 2 state.toNat
    rw [h, foldl_hexDigits, Option.some.injEq] at hvalue
    have hlt : state.toNat < 16 ^ 2 := state.toNat_lt
    rw [Nat.mod_eq_of_lt hlt] at hvalue
    exact UInt8.toNat_inj.mp hvalue.symm
  · rintro rfl
    rfl

theorem hexPort?_hexDigits (capital : Bool) (port : UInt16) :
    hexPort? (hexDigits capital 4 port.toNat) = some port.toNat := by
  have hlt : port.toNat < 16 ^ 4 := port.toNat_lt
  have hread := readBase?_hexDigits (k := 4) capital port.toNat (by decide)
  rw [Nat.mod_eq_of_lt hlt] at hread
  unfold hexPort?
  split
  · next r hr =>
    have hmem : '+' ∈ hexDigits capital 4 port.toNat := hr ▸ List.mem_cons_self
    obtain ⟨d, hd, hplus⟩ := mem_hexDigits hmem
    exact absurd hplus.symm (hexChar_plain capital d hd).2.2
  · dsimp only
    rw [hread]
    exact if_pos (by simpa using Nat.le_of_lt_succ hlt)

end Digits

section Columns

/-- Spaces as many as that. -/
def spaces (n : Nat) : Blanks := ⟨List.replicate n ' ', fun _ h => by
  rw [List.eq_of_mem_replicate h]
  rfl⟩

/-- What stands in a row: spaces, and what is no blank. -/
def IsPlain (c : Char) : Prop := c = ' ' ∨ isBlank c = false

theorem spaces_plain {n : Nat} {c : Char} (h : c ∈ (spaces n).1) : IsPlain c :=
  .inl (List.eq_of_mem_replicate h)

/-- Columns, each with at least one space before it. -/
def columns : List (Nat × Word) → List Char
  | [] => []
  | (gap, w) :: cs => (spaces (gap + 1)).1 ++ (w.1 ++ columns cs)

theorem isBlank_head?_columns (cs : List (Nat × Word)) : ∀ c ∈ (columns cs).head?, isBlank c := by
  intro c hc
  cases cs with
  | nil => cases hc
  | cons _ _ =>
    cases hc
    rfl

theorem wordsOf_columns (cs : List (Nat × Word)) : wordsOf (columns cs) = cs.map (·.2.1) := by
  induction cs with
  | nil => rfl
  | cons c cs ih =>
    rw [columns, wordsOf_blanks, wordsOf_word c.2 (isBlank_head?_columns cs), ih, List.map_cons]

theorem columns_plain (cs : List (Nat × Word)) : ∀ c ∈ columns cs, IsPlain c := by
  induction cs with
  | nil => nofun
  | cons column cs ih =>
    intro c hc
    simp only [columns, List.mem_append] at hc
    rcases hc with hspace | hword | hrest
    · exact spaces_plain hspace
    · exact .inr (column.2.2.2 c hword)
    · exact ih c hrest

end Columns

/-- A socket, and how its row is laid out. -/
structure Socket where
  index : Nat
  address : Word
  port : UInt16
  remote : Word
  state : UInt8
  /-- The columns behind the state, each with the number of extra spaces before it. -/
  more : List (Nat × Word)
  indent : Nat
  padding : Nat
  /-- Hexadecimal digits may be in capitals or not. -/
  capital : Bool

namespace Socket

variable (s : Socket)

def number : Word := ⟨Nat.toDigits 10 s.index ++ [':'], by simp, by
  intro c hc
  rcases List.mem_append.mp hc with hdigit | hcolon
  · exact isBlank_digit (Nat.isDigit_of_mem_toDigits (by decide) (by decide) hdigit)
  · rw [List.mem_singleton.mp hcolon]
    rfl⟩

def place : Word := ⟨s.address.1 ++ ':' :: hexDigits s.capital 4 s.port.toNat, by simp, by
  intro c hc
  rcases List.mem_append.mp hc with haddress | hport
  · exact s.address.2.2 c haddress
  · rcases List.mem_cons.mp hport with rfl | hdigits
    · rfl
    · exact isBlank_of_mem_hexDigits hdigits⟩

def status : Word := ⟨hexDigits s.capital 2 s.state.toNat, hexDigits_ne_nil (by decide),
  fun _ => isBlank_of_mem_hexDigits⟩

/-- A socket as the kernel lists it. -/
def row : List Char :=
  (spaces s.indent).1 ++ (s.number.1 ++
    columns ((0, s.place) :: (0, s.remote) :: (0, s.status) :: s.more)) ++ (spaces s.padding).1

theorem wordsOf_row :
    wordsOf s.row =
      s.number.1 :: s.place.1 :: s.remote.1 :: s.status.1 :: s.more.map (·.2.1) := by
  rw [row, wordsOf_append_blanks, wordsOf_blanks,
    wordsOf_word s.number (isBlank_head?_columns _), wordsOf_columns]
  rfl

theorem row_plain : ∀ c ∈ s.row, IsPlain c := by
  intro c hc
  simp only [row, List.mem_append] at hc
  rcases hc with (hspace | hnumber | hcolumns) | hspace
  · exact spaces_plain hspace
  · exact .inr (s.number.2.2 c hnumber)
  · exact columns_plain _ c hcolumns
  · exact spaces_plain hspace

end Socket

/-- The two kinds of tables. -/
inductive Protocol
  | tcp
  | tcp6

/-- The names of the columns, which stand above a table. -/
def Protocol.header : Protocol → String
  | tcp =>
    "  sl  local_address rem_address   " ++
      "st tx_queue rx_queue tr tm->when retrnsmt   uid  timeout inode"
  | tcp6 =>
    "  sl  local_address                         remote_address                        " ++
      "st tx_queue rx_queue tr tm->when retrnsmt   uid  timeout inode"

theorem header_plain (p : Protocol) : ∀ c ∈ p.header.toList, IsPlain c := by
  have hall : p.header.toList.all fun c => c == ' ' || !isBlank c := by cases p <;> decide +kernel
  intro c hc
  simpa [IsPlain] using List.all_eq_true.mp hall c hc

structure Table where
  protocol : Protocol
  padding : Nat
  sockets : List Socket

/-- The rows of a table, below the names of the columns. -/
def Table.rows (t : Table) : List (List Char) :=
  (t.protocol.header.toList ++ (spaces t.padding).1) :: t.sockets.map Socket.row

/-- Tables one after the other, each row ended by a line feed. -/
def print (ts : List Table) : String :=
  .ofList ((ts.flatMap Table.rows).flatMap (· ++ ['\n']))

variable {port : Nat} {line i place remote state : List Char} {more : List (List Char)}

theorem lineListens_of_words (h : wordsOf line = i :: place :: remote :: state :: more) :
    lineListens port (.ofList line) =
      (((cutAtLast ':' place).bind fun p => hexPort? p.2) == some port &&
        sameIgnoringCase (.ofList state) listenState) := by
  unfold lineListens Text.words
  rw [String.toList_ofList, h]
  simp only [List.map_cons, String.toList_ofList]

theorem row_listens (s : Socket) :
    lineListens port (.ofList s.row) ↔ s.port.toNat = port ∧ s.state = 0x0A := by
  have hcut : cutAtLast ':' s.place.1 = some (s.address.1, hexDigits s.capital 4 s.port.toNat) := by
    refine Text.cutAtLast_eq_some_iff.mpr ⟨rfl, fun hmem => ?_⟩
    obtain ⟨d, hd, hcolon⟩ := mem_hexDigits hmem
    exact (hexChar_plain s.capital d hd).2.1 hcolon.symm
  rw [lineListens_of_words s.wordsOf_row, hcut, Option.bind_some, hexPort?_hexDigits,
    Bool.and_eq_true, beq_iff_eq, Option.some.injEq]
  exact and_congr_right fun _ => state_eq_listen s.capital s.state

theorem header_listens (p : Protocol) (padding port : Nat) :
    lineListens port (.ofList (p.header.toList ++ (spaces padding).1)) = false := by
  have hwords : ∃ remote, wordsOf p.header.toList =
      "sl".toList :: "local_address".toList :: remote :: "st".toList ::
        ["tx_queue", "rx_queue", "tr", "tm->when", "retrnsmt", "uid", "timeout", "inode"].map
          String.toList := by
    cases p with
    | tcp => exact ⟨"rem_address".toList, by decide +kernel⟩
    | tcp6 => exact ⟨"remote_address".toList, by decide +kernel⟩
  obtain ⟨remote, hwords⟩ := hwords
  have hcut : cutAtLast ':' "local_address".toList = none := by decide +kernel
  rw [← wordsOf_append_blanks _ (spaces padding)] at hwords
  rw [lineListens_of_words hwords, hcut]
  rfl

theorem not_mem_of_plain {cs : List Char} (h : ∀ c ∈ cs, IsPlain c) : '\n' ∉ cs ∧ '\r' ∉ cs := by
  refine ⟨fun hmem => ?_, fun hmem => ?_⟩
  · rcases h _ hmem with hc | hc <;> cases hc
  · rcases h _ hmem with hc | hc <;> cases hc

theorem plain_rows (t : Table) : ∀ row ∈ t.rows, '\n' ∉ row ∧ '\r' ∉ row := by
  refine List.forall_mem_cons.mpr ⟨not_mem_of_plain fun c hc => ?_, fun row hrow => ?_⟩
  · rcases List.mem_append.mp hc with hheader | hspace
    · exact header_plain t.protocol c hheader
    · exact spaces_plain hspace
  · obtain ⟨s, -, rfl⟩ := List.mem_map.mp hrow
    exact not_mem_of_plain s.row_plain

theorem lines_print (ts : List Table) :
    Text.lines (print ts) = (ts.flatMap Table.rows).map String.ofList := by
  have hrows : ∀ row ∈ ts.flatMap Table.rows, '\n' ∉ row ∧ '\r' ∉ row := by
    intro row hrow
    obtain ⟨t, -, ht⟩ := List.mem_flatMap.mp hrow
    exact plain_rows t row ht
  rw [Text.lines, print, String.toList_ofList, linesOf_ended hrows]

/-- From tables as the kernel prints them it is read whether some socket listens on a port: neither
a port at the other end counts, nor a socket in another state, nor the names of the columns. -/
theorem tableListens_print (ts : List Table) (port : Nat) :
    tableListens (print ts) port ↔
      ∃ t ∈ ts, ∃ s ∈ t.sockets, s.port.toNat = port ∧ s.state = 0x0A := by
  rw [tableListens, lines_print, List.any_map, List.any_flatMap, List.any_eq_true]
  refine exists_congr fun t => and_congr_right fun _ => ?_
  have hheader := header_listens t.protocol t.padding port
  rw [Table.rows, List.any_cons, List.any_map, Function.comp_apply, hheader, Bool.false_or,
    List.any_eq_true]
  exact exists_congr fun s => and_congr_right fun _ => row_listens s

example :
    let zeros : Word := ⟨"00000000".toList, by decide, isBlank_of_all (by decide)⟩
    let remote : Word := ⟨"00000000:0000".toList, by decide, isBlank_of_all (by decide)⟩
    let uid : Word := ⟨['0'], by decide, isBlank_of_all (by decide)⟩
    print [⟨.tcp, 0, [⟨0, zeros, 8080, remote, 0x0A, [(0, zeros), (5, uid)], 3, 0, true⟩]⟩] =
      "  sl  local_address rem_address   st tx_queue rx_queue tr tm->when retrnsmt   uid  " ++
        "timeout inode\n   0: 00000000:1F90 00000000:0000 0A 00000000      0\n" := by
  decide +kernel

end Assay.PortStep
