import Mathlib.Data.List.Forall2
import TrafficMeter.Proofs.Text.Numerals
import TrafficMeter.Proofs.Text.WholeLines
import TrafficMeter.Source.Dump

/-!
The grammar of dumps. `Accepts` says which texts are dumps and of which peers, `Rejects` what the
first line is that makes a text none. `read` decides between the two, and what is written for peers
is a dump of them.
-/

namespace TrafficMeter.Dump

open Text (IsCut Lined Signed Unsigned)

section Grammar

def Blank (line : List Char) : Prop := ∀ c ∈ line, Text.isBlank c = true

instance : DecidablePred Blank := fun line =>
  inferInstanceAs (Decidable (∀ c ∈ line, Text.isBlank c = true))

def IsMoment (text : List Char) (t : Int) : Prop := Signed text t ∧ minTime ≤ t ∧ t ≤ maxTime

def IsCount (text : List Char) (n : Nat) : Prop := Unsigned text n ∧ n ≤ maxCount

def Columns (line key endpoint handshake received sent : List Char) : Prop :=
  ∃ preshared allowed keepalive, IsCut '\t' line
    [key, preshared, endpoint, allowed, handshake, received, sent, keepalive]

def Tells (line : List Char) (p : PeerReading) : Prop :=
  ∃ endpoint handshake received sent,
    Columns line p.peer.toList endpoint handshake received sent ∧
    p.endpoint = (if endpoint = "(none)".toList then "" else String.ofList endpoint) ∧
    IsMoment handshake p.lastHandshake ∧ IsCount received p.rx ∧ IsCount sent p.tx

/-- What is wrong with a line that stands at number `n`: the first thing in this order. -/
inductive Offends (n : Nat) (line : List Char) : SourceFault → Prop
  | interface {fields : List (List Char)} : n = 1 → ¬ Blank line → IsCut '\t' line fields →
      fields.length ≠ 4 → Offends n line (.fieldCount n 4 fields.length)
  | fields {fields : List (List Char)} : 1 < n → ¬ Blank line → IsCut '\t' line fields →
      fields.length ≠ 8 → Offends n line (.fieldCount n 8 fields.length)
  | handshake {key endpoint handshake received sent : List Char} : 1 < n → ¬ Blank line →
      Columns line key endpoint handshake received sent → (∀ t, ¬ IsMoment handshake t) →
      Offends n line (.invalidField n "latest-handshake" (String.ofList handshake))
  | received {key endpoint handshake received sent : List Char} {t : Int} : 1 < n → ¬ Blank line →
      Columns line key endpoint handshake received sent → IsMoment handshake t →
      (∀ rx, ¬ IsCount received rx) →
      Offends n line (.invalidField n "transfer-rx" (String.ofList received))
  | sent {key endpoint handshake received sent : List Char} {t : Int} {rx : Nat} : 1 < n →
      ¬ Blank line → Columns line key endpoint handshake received sent → IsMoment handshake t →
      IsCount received rx → (∀ tx, ¬ IsCount sent tx) →
      Offends n line (.invalidField n "transfer-tx" (String.ofList sent))

def Heads (line : List Char) : Prop :=
  Blank line ∨ ∃ fields, IsCut '\t' line fields ∧ fields.length = 4

/-- The text is a dump of these peers: one for each line after the first that is not blank. -/
def Accepts (text : String) (peers : List PeerReading) : Prop :=
  ∃ lines, Lined text.toList lines ∧ (∀ first ∈ lines.head?, Heads first) ∧
    List.Forall₂ Tells (lines.tail.filter (¬ Blank ·)) peers

def FirstOffends (n : Nat) (lines : List (List Char)) (fault : SourceFault) : Prop :=
  ∃ before line after, lines = before ++ line :: after ∧
    (∀ i earlier, before[i]? = some earlier → ∀ other, ¬ Offends (n + i) earlier other) ∧
    Offends (n + before.length) line fault

/-- The text is no dump, by the first of its lines that offends. Blank lines count. -/
def Rejects (text : String) (fault : SourceFault) : Prop :=
  ∃ lines, Lined text.toList lines ∧ FirstOffends 1 lines fault

end Grammar

section Fields

variable {n : Nat} {line text : List Char} {p : PeerReading} {fault : SourceFault}

theorem isBlankLine_iff : isBlankLine line = true ↔ Blank line := List.all_eq_true

theorem moment?_eq_some_iff {t : Int} : moment? text = some t ↔ IsMoment text t :=
  Text.signed?_eq_some_iff

theorem count?_eq_some_iff {k : Nat} : count? text = some k ↔ IsCount text k :=
  Text.unsigned?_eq_some_iff

theorem moment?_eq_none_iff : moment? text = none ↔ ∀ t, ¬ IsMoment text t := by
  simp only [Option.eq_none_iff_forall_ne_some, ne_eq, moment?_eq_some_iff]

theorem count?_eq_none_iff : count? text = none ↔ ∀ k, ¬ IsCount text k := by
  simp only [Option.eq_none_iff_forall_ne_some, ne_eq, count?_eq_some_iff]

section Field

variable {α β : Type} {name : String} {parse : List Char → Option α}
  {next : α → Except SourceFault β}

theorem field_bind_ok {b : β} : (field n name parse text >>= next) = .ok b ↔
    ∃ a, parse text = some a ∧ next a = .ok b := by
  unfold field
  cases parse text with
  | none => exact ⟨nofun, nofun⟩
  | some a =>
    constructor
    · exact fun h => ⟨a, rfl, h⟩
    · rintro ⟨_, ⟨rfl⟩, h⟩
      exact h

theorem field_bind_error : (field n name parse text >>= next) = .error fault ↔
    (parse text = none ∧ .invalidField n name (String.ofList text) = fault) ∨
      ∃ a, parse text = some a ∧ next a = .error fault := by
  unfold field
  cases parse text with
  | none =>
    constructor
    · exact fun h => Or.inl ⟨rfl, Except.error.inj h⟩
    · rintro (⟨-, rfl⟩ | ⟨a, ha, -⟩)
      · rfl
      · cases ha
  | some a =>
    constructor
    · exact fun h => Or.inr ⟨a, rfl, h⟩
    · rintro (⟨hnone, -⟩ | ⟨_, ⟨rfl⟩, hnext⟩)
      · cases hnone
      · exact hnext

end Field

theorem endpointOf_eq (text : List Char) :
    endpointOf text = if text = "(none)".toList then "" else String.ofList text := by
  have hnamed : String.ofList text = noEndpoint ↔ text = "(none)".toList := by
    rw [← String.toList_inj, String.toList_ofList]
    rfl
  unfold endpointOf
  simp only [hnamed]

theorem readPeer_of_length {fields : List (List Char)} (h : fields.length ≠ 8) :
    readPeer n fields = .error (.fieldCount n 8 fields.length) := by
  unfold readPeer
  split
  · exact absurd rfl h
  · rfl

theorem columns_or_length (line : List Char) :
    (∃ key endpoint handshake received sent, Columns line key endpoint handshake received sent) ∨
    (Text.pieces '\t' line).length ≠ 8 := by
  by_cases h : (Text.pieces '\t' line).length = 8
  · left
    match Text.pieces '\t' line, h, Text.isCut_pieces '\t' line with
    | [_, _, _, _, _, _, _, _], _, hcut => exact ⟨_, _, _, _, _, _, _, _, hcut⟩
  · exact Or.inr h

section Peers

variable {key endpoint handshake received sent : List Char}

theorem readPeer_columns_ok (h : Columns line key endpoint handshake received sent) :
    readPeer n (Text.pieces '\t' line) = .ok p ↔
      ∃ t, IsMoment handshake t ∧ ∃ rx, IsCount received rx ∧ ∃ tx, IsCount sent tx ∧
        ⟨String.ofList key, rx, tx, endpointOf endpoint, t⟩ = p := by
  obtain ⟨preshared, allowed, keepalive, hcut⟩ := h
  rw [Text.pieces_of_isCut hcut]
  simp only [readPeer, field_bind_ok, moment?_eq_some_iff, count?_eq_some_iff]
  simp only [pure, Except.pure, Except.ok.injEq]

theorem readPeer_columns_error (h : Columns line key endpoint handshake received sent) :
    readPeer n (Text.pieces '\t' line) = .error fault ↔
      ((∀ t, ¬ IsMoment handshake t) ∧
        .invalidField n "latest-handshake" (String.ofList handshake) = fault) ∨
      ∃ t, IsMoment handshake t ∧
        (((∀ rx, ¬ IsCount received rx) ∧
          .invalidField n "transfer-rx" (String.ofList received) = fault) ∨
        ∃ rx, IsCount received rx ∧ (∀ tx, ¬ IsCount sent tx) ∧
          .invalidField n "transfer-tx" (String.ofList sent) = fault) := by
  obtain ⟨preshared, allowed, keepalive, hcut⟩ := h
  rw [Text.pieces_of_isCut hcut]
  simp only [readPeer, field_bind_error, moment?_eq_some_iff, count?_eq_some_iff,
    moment?_eq_none_iff, count?_eq_none_iff]
  simp only [pure, Except.pure, reduceCtorEq, and_false, exists_false, or_false]

end Peers

theorem readPeer_eq_ok_iff : readPeer n (Text.pieces '\t' line) = .ok p ↔ Tells line p := by
  constructor
  · intro h
    rcases columns_or_length line with ⟨key, endpoint, handshake, received, sent, hcolumns⟩ |
      hlength
    · obtain ⟨t, ht, rx, hrx, tx, htx, rfl⟩ := (readPeer_columns_ok hcolumns).mp h
      refine ⟨endpoint, handshake, received, sent, ?_, endpointOf_eq endpoint, ht, hrx, htx⟩
      rwa [String.toList_ofList]
    · rw [readPeer_of_length hlength] at h
      cases h
  · rintro ⟨endpoint, handshake, received, sent, hcolumns, hendpoint, ht, hrx, htx⟩
    refine (readPeer_columns_ok hcolumns).mpr ⟨_, ht, _, hrx, _, htx, ?_⟩
    rw [String.ofList_toList, endpointOf_eq, ← hendpoint]

theorem readPeer_eq_error_iff (hn : 1 < n) (hline : ¬ Blank line) :
    readPeer n (Text.pieces '\t' line) = .error fault ↔ Offends n line fault := by
  constructor
  · intro h
    rcases columns_or_length line with ⟨key, endpoint, handshake, received, sent, hcolumns⟩ |
      hlength
    · rcases (readPeer_columns_error hcolumns).mp h with ⟨hnone, rfl⟩ | ⟨t, ht, ⟨hnone, rfl⟩ |
        ⟨rx, hrx, hnone, rfl⟩⟩
      · exact .handshake hn hline hcolumns hnone
      · exact .received hn hline hcolumns ht hnone
      · exact .sent hn hline hcolumns ht hrx hnone
    · rw [readPeer_of_length hlength] at h
      exact Except.error.inj h ▸ .fields hn hline (Text.isCut_pieces '\t' line) hlength
  · intro h
    cases h with
    | interface hfirst => omega
    | fields _ _ hcut hlength => rw [Text.pieces_of_isCut hcut, readPeer_of_length hlength]
    | handshake _ _ hcolumns hnone =>
      exact (readPeer_columns_error hcolumns).mpr (Or.inl ⟨hnone, rfl⟩)
    | received _ _ hcolumns ht hnone =>
      exact (readPeer_columns_error hcolumns).mpr (Or.inr ⟨_, ht, Or.inl ⟨hnone, rfl⟩⟩)
    | sent _ _ hcolumns ht hrx hnone =>
      exact (readPeer_columns_error hcolumns).mpr (Or.inr ⟨_, ht, Or.inr ⟨_, hrx, hnone, rfl⟩⟩)

end Fields

section Lines

variable {n : Nat} {line : List Char} {lines rest : List (List Char)} {peers : List PeerReading}
  {fault : SourceFault}

theorem Offends.not_blank (h : Offends n line fault) : ¬ Blank line := by
  cases h <;> assumption

theorem readPeers_blank (h : Blank line) :
    readPeers n (line :: rest) = readPeers (n + 1) rest := by
  rw [readPeers, if_pos (isBlankLine_iff.mpr h)]

theorem readPeers_cons_ok (h : ¬ Blank line) :
    readPeers n (line :: rest) = .ok peers ↔ ∃ p more,
      readPeer n (Text.pieces '\t' line) = .ok p ∧ readPeers (n + 1) rest = .ok more ∧
        peers = p :: more := by
  rw [readPeers, if_neg (mt isBlankLine_iff.mp h)]
  cases readPeer n (Text.pieces '\t' line) with
  | error fault => exact ⟨nofun, nofun⟩
  | ok p =>
    cases readPeers (n + 1) rest with
    | error fault => exact ⟨nofun, nofun⟩
    | ok more =>
      constructor
      · intro hread
        exact ⟨p, more, rfl, rfl, (Except.ok.inj hread).symm⟩
      · rintro ⟨_, _, hp, hmore, rfl⟩
        cases hp
        cases hmore
        rfl

theorem readPeers_cons_error (h : ¬ Blank line) :
    readPeers n (line :: rest) = .error fault ↔
      readPeer n (Text.pieces '\t' line) = .error fault ∨
      (∀ other, readPeer n (Text.pieces '\t' line) ≠ .error other) ∧
        readPeers (n + 1) rest = .error fault := by
  rw [readPeers, if_neg (mt isBlankLine_iff.mp h)]
  cases readPeer n (Text.pieces '\t' line) with
  | error other =>
    constructor
    · intro hread
      cases hread
      exact Or.inl rfl
    · rintro (hread | ⟨hnone, -⟩)
      · cases hread
        rfl
      · exact absurd rfl (hnone other)
  | ok p =>
    cases readPeers (n + 1) rest with
    | error other =>
      constructor
      · exact fun hread => Or.inr ⟨nofun, hread⟩
      · rintro (hread | ⟨-, hread⟩)
        · cases hread
        · exact hread
    | ok more =>
      constructor
      · nofun
      · rintro (hread | ⟨-, hread⟩) <;> cases hread

theorem readPeers_eq_ok_iff :
    readPeers n lines = .ok peers ↔ List.Forall₂ Tells (lines.filter (¬ Blank ·)) peers := by
  induction lines generalizing n peers with
  | nil =>
    rw [List.filter_nil, List.forall₂_nil_left_iff, readPeers, Except.ok.injEq]
    exact eq_comm
  | cons line rest ih =>
    by_cases hline : Blank line
    · rw [readPeers_blank hline, ih, List.filter_cons_of_neg (by simpa using hline)]
    · rw [readPeers_cons_ok hline, List.filter_cons_of_pos (by simpa using hline),
        List.forall₂_cons_left_iff]
      simp only [readPeer_eq_ok_iff, ih]

theorem firstOffends_nil : ¬ FirstOffends n [] fault := by
  rintro ⟨before, line, after, h, -⟩
  exact List.append_ne_nil_of_right_ne_nil before (List.cons_ne_nil line after) h.symm

theorem firstOffends_cons :
    FirstOffends n (line :: rest) fault ↔ Offends n line fault ∨
      (∀ other, ¬ Offends n line other) ∧ FirstOffends (n + 1) rest fault := by
  constructor
  · rintro ⟨before, found, after, hlines, hearlier, hfound⟩
    cases before with
    | nil =>
      obtain ⟨rfl, -⟩ := List.cons.inj hlines
      exact Or.inl hfound
    | cons first before =>
      obtain ⟨rfl, rfl⟩ := List.cons.inj hlines
      refine Or.inr ⟨hearlier 0 _ rfl, before, found, after, rfl, fun i earlier hi => ?_, ?_⟩
      · rw [Nat.add_right_comm]
        exact hearlier (i + 1) earlier hi
      · rw [Nat.add_right_comm]
        exact hfound
  · rintro (h | ⟨hnone, before, found, after, rfl, hearlier, hfound⟩)
    · exact ⟨[], line, rest, rfl, nofun, h⟩
    · refine ⟨line :: before, found, after, rfl, fun i earlier hi => ?_, ?_⟩
      · cases i with
        | zero => exact Option.some.inj hi ▸ hnone
        | succ i =>
          rw [← Nat.add_assoc, Nat.add_right_comm]
          exact hearlier i earlier hi
      · rw [List.length_cons, ← Nat.add_assoc, Nat.add_right_comm]
        exact hfound

theorem readPeers_eq_error_iff (hn : 1 < n) :
    readPeers n lines = .error fault ↔ FirstOffends n lines fault := by
  induction lines generalizing n with
  | nil => exact ⟨nofun, fun h => absurd h firstOffends_nil⟩
  | cons line rest ih =>
    rw [firstOffends_cons]
    by_cases hline : Blank line
    · -- a blank line is passed over, but the numbers go on
      have hnone : ∀ other, ¬ Offends n line other := fun _ h => h.not_blank hline
      rw [readPeers_blank hline, ih (by omega)]
      exact ⟨fun h => Or.inr ⟨hnone, h⟩, fun h => h.elim (absurd · (hnone fault)) (·.2)⟩
    · rw [readPeers_cons_error hline, ih (by omega)]
      simp only [ne_eq, readPeer_eq_error_iff hn hline]

theorem heads_iff :
    (isBlankLine line || decide ((Text.pieces '\t' line).length = interfaceFields)) = true ↔
      Heads line := by
  rw [Bool.or_eq_true, isBlankLine_iff, decide_eq_true_eq]
  refine or_congr_right ⟨fun h => ⟨_, Text.isCut_pieces '\t' line, h⟩, ?_⟩
  rintro ⟨fields, hcut, hlength⟩
  rw [Text.pieces_of_isCut hcut, hlength]
  rfl

theorem offends_first_iff :
    Offends 1 line fault ↔
      ¬ Heads line ∧ .fieldCount 1 interfaceFields (Text.pieces '\t' line).length = fault := by
  constructor
  · intro h
    cases h with
    | interface _ hline hcut hlength =>
      rw [Text.pieces_of_isCut hcut]
      refine ⟨?_, rfl⟩
      rintro (hblank | ⟨others, hothers, hfour⟩)
      · exact hline hblank
      · rw [← Text.pieces_of_isCut hcut, Text.pieces_of_isCut hothers] at hlength
        exact hlength hfour
    | fields hn => omega
    | handshake hn => omega
    | received hn => omega
    | sent hn => omega
  · rintro ⟨hheads, rfl⟩
    obtain ⟨hline, hfields⟩ := not_or.mp hheads
    exact .interface rfl hline (Text.isCut_pieces '\t' line)
      fun hfour => hfields ⟨_, Text.isCut_pieces '\t' line, hfour⟩

theorem readLines_of_heads (h : Heads line) : readLines (line :: rest) = readPeers 2 rest :=
  if_pos (heads_iff.mpr h)

theorem readLines_of_not_heads (h : ¬ Heads line) : readLines (line :: rest) =
    .error (.fieldCount 1 interfaceFields (Text.pieces '\t' line).length) :=
  if_neg (mt heads_iff.mp h)

theorem readLines_eq_ok_iff :
    readLines lines = .ok peers ↔ (∀ first ∈ lines.head?, Heads first) ∧
      List.Forall₂ Tells (lines.tail.filter (¬ Blank ·)) peers := by
  rw [← @readPeers_eq_ok_iff 2]
  cases lines with
  | nil => exact ⟨fun h => ⟨nofun, h⟩, fun h => h.2⟩
  | cons first rest =>
    rw [List.head?_cons, List.tail_cons]
    constructor
    · intro h
      by_cases hheads : Heads first
      · rw [readLines_of_heads hheads] at h
        exact ⟨fun _ hfirst => Option.some.inj hfirst ▸ hheads, h⟩
      · rw [readLines_of_not_heads hheads] at h
        cases h
    · rintro ⟨hheads, h⟩
      rwa [readLines_of_heads (hheads first rfl)]

theorem readLines_eq_error_iff : readLines lines = .error fault ↔ FirstOffends 1 lines fault := by
  cases lines with
  | nil => exact ⟨nofun, fun h => absurd h firstOffends_nil⟩
  | cons first rest =>
    rw [firstOffends_cons, ← readPeers_eq_error_iff (by decide : 1 < 1 + 1)]
    simp only [offends_first_iff]
    by_cases hheads : Heads first
    · simp [readLines_of_heads hheads, hheads]
    · simp [readLines_of_not_heads hheads, hheads]

theorem read_eq_ok_iff {text : String} : read text = .ok peers ↔ Accepts text peers := by
  unfold read Accepts
  rw [readLines_eq_ok_iff]
  simp only [← Text.lines_eq_iff, exists_eq_left']

theorem read_eq_error_iff {text : String} : read text = .error fault ↔ Rejects text fault := by
  unfold read Rejects
  rw [readLines_eq_error_iff]
  simp only [← Text.lines_eq_iff, exists_eq_left']

end Lines

section Writing

def Plain (text : List Char) : Prop := '\t' ∉ text ∧ '\r' ∉ text ∧ '\n' ∉ text

instance : DecidablePred Plain := fun text =>
  inferInstanceAs (Decidable ('\t' ∉ text ∧ '\r' ∉ text ∧ '\n' ∉ text))

/-- The fields of a line that writes a reading. What it does not carry may be anything. -/
def Writes (p : PeerReading) (fields : List (List Char)) : Prop :=
  ∃ preshared allowed keepalive, Plain preshared ∧ Plain allowed ∧ Plain keepalive ∧
    fields = [p.peer.toList, preshared, (if p.endpoint = "" then "(none)" else p.endpoint).toList,
      allowed, (toString p.lastHandshake).toList, (toString p.rx).toList, (toString p.tx).toList,
      keepalive]

structure Writable (p : PeerReading) : Prop where
  key : Plain p.peer.toList
  endpoint : Plain p.endpoint.toList
  named : p.endpoint ≠ "(none)"
  moment : minTime ≤ p.lastHandshake ∧ p.lastHandshake ≤ maxTime
  counts : p.rx ≤ maxCount ∧ p.tx ≤ maxCount

def ofRows (rows : List (List (List Char))) : String := String.ofList (rows.flatMap writeLine)

variable {p : PeerReading} {fields : List (List Char)}

theorem Plain.of_signed {text : List Char} {t : Int} (h : Signed text t) : Plain text :=
  ⟨h.not_mem (by decide) (by decide) (by decide), h.not_mem (by decide) (by decide) (by decide),
    h.not_mem (by decide) (by decide) (by decide)⟩

theorem Writes.plain (h : Writes p fields) (hp : Writable p) : ∀ field ∈ fields, Plain field := by
  obtain ⟨preshared, allowed, keepalive, hpreshared, hallowed, hkeepalive, rfl⟩ := h
  have hendpoint : Plain (if p.endpoint = "" then "(none)" else p.endpoint).toList := by
    split
    · decide
    · exact hp.endpoint
  have hcount : ∀ n : Nat, Plain (toString n).toList := fun n =>
    Plain.of_signed (Text.unsigned_toString n).signed
  simp only [List.forall_mem_cons]
  exact ⟨hp.key, hpreshared, hendpoint, hallowed, Plain.of_signed (Text.signed_toString _),
    hcount p.rx, hcount p.tx, hkeepalive, List.forall_mem_nil _⟩

theorem isCut_of_plain (hne : fields ≠ []) (h : ∀ field ∈ fields, Plain field) :
    IsCut '\t' (['\t'].intercalate fields) fields :=
  ⟨hne, fun field hfield => (h field hfield).1, rfl⟩

theorem lined_ofRows {rows : List (List (List Char))}
    (h : ∀ fields ∈ rows, ∀ field ∈ fields, Plain field) :
    Lined (ofRows rows).toList (rows.map ['\t'].intercalate) := by
  have hrows : (ofRows rows).toList = (rows.map ['\t'].intercalate).flatMap (· ++ ['\n']) := by
    rw [ofRows, String.toList_ofList, List.flatMap_map]
    rfl
  rw [hrows]
  apply Text.lined_flatMap
  rw [List.forall_mem_map]
  refine fun fields hfields => ⟨fun hc => ?_, fun hc => ?_⟩
  · rcases Text.mem_of_mem_intercalate hc with heq | ⟨field, hfield, hc⟩
    · exact absurd heq (by decide)
    · exact (h fields hfields field hfield).2.2 hc
  · rcases Text.mem_of_mem_intercalate hc with heq | ⟨field, hfield, hc⟩
    · exact absurd heq (by decide)
    · exact (h fields hfields field hfield).2.1 hc

theorem Writes.tells (h : Writes p fields) (hp : Writable p) :
    Tells (['\t'].intercalate fields) p := by
  have hplain := h.plain hp
  obtain ⟨preshared, allowed, keepalive, -, -, -, rfl⟩ := h
  refine ⟨_, _, _, _, ⟨preshared, allowed, keepalive, isCut_of_plain (List.cons_ne_nil _ _) hplain⟩,
    ?_, ⟨Text.signed_toString _, hp.moment⟩, ⟨Text.unsigned_toString _, hp.counts.1⟩,
    ⟨Text.unsigned_toString _, hp.counts.2⟩⟩
  by_cases hnone : p.endpoint = ""
  · rw [if_pos hnone, if_pos rfl, hnone]
  · rw [if_neg hnone, if_neg (mt String.toList_inj.mp hp.named), String.ofList_toList]

theorem Writes.not_blank (h : Writes p fields) : ¬ Blank (['\t'].intercalate fields) := by
  obtain ⟨preshared, allowed, keepalive, -, -, -, rfl⟩ := h
  have hnumeral := Text.isNumeral_repr p.rx
  obtain ⟨c, hc⟩ := List.exists_mem_of_ne_nil _ hnumeral.nonempty
  intro hblank
  have hrow := hblank c (Text.mem_intercalate_of_mem (by simp) hc)
  rw [Text.isBlank_of_isDigit (hnumeral.digits c hc)] at hrow
  cases hrow

theorem read_ofRows {interface : List (List Char)} {rows : List (List (List Char))}
    {peers : List PeerReading} (hinterface : interface.length = 4)
    (hplain : ∀ field ∈ interface, Plain field) (hpeers : ∀ p ∈ peers, Writable p)
    (hrows : List.Forall₂ Writes peers rows) : read (ofRows (interface :: rows)) = .ok peers := by
  have hlines : List.Forall₂ (fun fields p => (∀ field ∈ fields, Plain field) ∧
      ¬ Blank (['\t'].intercalate fields) ∧ Tells (['\t'].intercalate fields) p) rows peers :=
    (((List.forall₂_and_left peers rows).mpr ⟨hpeers, hrows⟩).imp
      fun p fields ⟨hp, h⟩ => ⟨h.plain hp, h.not_blank, h.tells hp⟩).flip
  obtain ⟨hplainRows, hlines⟩ := (List.forall₂_and_left rows peers).mp hlines
  obtain ⟨hnotBlank, htells⟩ := (List.forall₂_and_left rows peers).mp hlines
  have hkept : (rows.map ['\t'].intercalate).filter (¬ Blank ·) = rows.map ['\t'].intercalate := by
    rw [List.filter_eq_self, List.forall_mem_map]
    exact fun fields hfields => decide_eq_true (hnotBlank fields hfields)
  have hne : interface ≠ [] := by
    rintro rfl
    cases hinterface
  refine read_eq_ok_iff.mpr ⟨_, lined_ofRows (List.forall_mem_cons.mpr ⟨hplain, hplainRows⟩), ?_, ?_⟩
  · rw [List.map_cons, List.head?_cons]
    rintro _ ⟨rfl⟩
    exact Or.inr ⟨interface, isCut_of_plain hne hplain, hinterface⟩
  · rw [List.map_cons, List.tail_cons, hkept, List.forall₂_map_left_iff]
    exact htells

theorem writes_fieldsOf (p : PeerReading) : Writes p (fieldsOf p) := by
  refine ⟨"(none)".toList, "(none)".toList, "off".toList, by decide, by decide, by decide, ?_⟩
  simp only [fieldsOf, String.isEmpty_iff]
  rfl

end Writing

/-- A text is a dump of some peers, which then is what it reads as, or it has a first line that
offends, which then is what the reader reports. Every list of peers that fits has dumps, whatever
stands in the fields that a reading does not carry. -/
theorem dumps_read_by_grammar (text : String) :
    (∀ peers, read text = .ok peers ↔ Accepts text peers) ∧
    (∀ fault, read text = .error fault ↔ Rejects text fault) ∧
    (∀ interface rows peers, interface.length = 4 → (∀ field ∈ interface, Plain field) →
      (∀ p ∈ peers, Writable p) → List.Forall₂ Writes peers rows →
      read (ofRows (interface :: rows)) = .ok peers) ∧
    ∀ peers, (∀ p ∈ peers, Writable p) → read (write peers) = .ok peers := by
  refine ⟨fun _ => read_eq_ok_iff, fun _ => read_eq_error_iff, fun _ _ _ => read_ofRows,
    fun peers hpeers => ?_⟩
  have hrows : List.Forall₂ Writes peers (peers.map fieldsOf) :=
    List.forall₂_map_right_iff.mpr (List.forall₂_same.mpr fun p _ => writes_fieldsOf p)
  exact read_ofRows rfl (by decide) hpeers hrows

/-- Lines with either end, blank ones among them, signs and zeros in front of digits; a fault that
stands behind blank lines and before another; two peers, one of which has no endpoint. -/
theorem dumps_read_by_grammar_with_blank_lines :
    Accepts ("if\tkey\t51820\toff\r\n\r\n \t \n" ++
        "k\t(none)\t(none)\t-\t-5\t+007\t18446744073709551615\toff")
      [⟨"k", 7, 18446744073709551615, "", -5⟩] ∧
    Rejects "\n\r\nk\t(none)\te\t-\tlater\t-1\t1\toff\n"
      (.invalidField 3 "latest-handshake" "later") ∧
    read (write [⟨"k ", 1, 2, "", -3⟩, ⟨"", 0, 0, "e", 0⟩]) =
      .ok [⟨"k ", 1, 2, "", -3⟩, ⟨"", 0, 0, "e", 0⟩] := by
  refine ⟨((dumps_read_by_grammar _).1 _).mp (by rfl),
    ((dumps_read_by_grammar _).2.1 _).mp (by rfl), (dumps_read_by_grammar "").2.2.2 _ ?_⟩
  simp only [List.forall_mem_cons]
  exact ⟨⟨by decide, by decide, by decide, by decide, by decide⟩,
    ⟨by decide, by decide, by decide, by decide, by decide⟩, List.forall_mem_nil _⟩

end TrafficMeter.Dump
