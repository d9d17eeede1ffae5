import Mathlib.Data.Prod.Lex
import Mathlib.Order.Bounds.Basic
import TrafficMeter.Json.Writer
import TrafficMeter.Proofs.Text.Blanks
import TrafficMeter.Source.Roster

/-!
The identities that a document lists. A place is a client of an inbound, and places are in the order
in which they are read. The identities are the trimmed emails of all places but the empty ones, each
once and in the order of the places where they stand first.
-/

namespace TrafficMeter

namespace ProxyDocument

section FirstOccurrences

variable {seen names : List String} {name : String}

theorem mem_firstOccurrences :
    name ∈ firstOccurrences seen names ↔ name ∈ names ∧ name ∉ seen := by
  induction names generalizing seen with
  | nil => simp [firstOccurrences]
  | cons first rest ih =>
    rw [firstOccurrences]
    by_cases hseen : first ∈ seen
    · rw [if_pos (List.contains_iff_mem.mpr hseen), ih, List.mem_cons]
      constructor
      · rintro ⟨hrest, hnew⟩
        exact ⟨Or.inr hrest, hnew⟩
      · rintro ⟨rfl | hrest, hnew⟩
        · exact absurd hseen hnew
        · exact ⟨hrest, hnew⟩
    · rw [if_neg (mt List.contains_iff_mem.mp hseen), List.mem_cons, ih, List.mem_cons,
        List.mem_cons]
      by_cases heq : name = first
      · simp [heq, hseen]
      · simp [heq]

theorem firstOccurrences_nodup : (firstOccurrences seen names).Nodup := by
  induction names generalizing seen with
  | nil => exact List.nodup_nil
  | cons first rest ih =>
    rw [firstOccurrences]
    split
    · exact ih
    · refine List.nodup_cons.mpr ⟨fun hagain => ?_, ih⟩
      exact (mem_firstOccurrences.mp hagain).2 List.mem_cons_self

end FirstOccurrences

section Placed

variable {κ : Type} [Preorder κ] {entries : List (κ × String)} {first : κ × String}
  {name : String} {place : κ}

def placesOf (entries : List (κ × String)) (name : String) : Set κ :=
  {place | (place, name) ∈ entries}

theorem isLeast_head (h : ∀ e ∈ entries, first.1 < e.1) :
    IsLeast (placesOf (first :: entries) first.2) first.1 := by
  refine ⟨List.mem_cons_self, fun other hother => ?_⟩
  rcases List.mem_cons.mp hother with hsame | hlater
  · exact (congrArg Prod.fst hsame).ge
  · exact (h _ hlater).le

theorem isLeast_cons (h : IsLeast (placesOf entries name) place) (hne : first.2 ≠ name) :
    IsLeast (placesOf (first :: entries) name) place := by
  refine ⟨List.mem_cons_of_mem first h.1, fun other hother => ?_⟩
  rcases List.mem_cons.mp hother with rfl | hlater
  · exact absurd rfl hne
  · exact h.2 hlater

theorem exists_isLeast (h : entries.Pairwise fun a b => a.1 < b.1)
    (hname : name ∈ entries.map (·.2)) : ∃ place, IsLeast (placesOf entries name) place := by
  induction entries with
  | nil => cases hname
  | cons first rest ih =>
    obtain ⟨hfirst, hrest⟩ := List.pairwise_cons.mp h
    by_cases heq : first.2 = name
    · exact ⟨first.1, heq ▸ isLeast_head hfirst⟩
    · obtain ⟨place, hplace⟩ := ih hrest ((List.mem_cons.mp hname).resolve_left (Ne.symm heq))
      exact ⟨place, isLeast_cons hplace heq⟩

theorem firstOccurrences_pairwise (h : entries.Pairwise fun a b => a.1 < b.1)
    (seen : List String) :
    (firstOccurrences seen (entries.map (·.2))).Pairwise fun a b =>
      ∃ p q, IsLeast (placesOf entries a) p ∧ IsLeast (placesOf entries b) q ∧ p < q := by
  induction entries generalizing seen with
  | nil => exact List.Pairwise.nil
  | cons first rest ih =>
    obtain ⟨hfirst, hrest⟩ := List.pairwise_cons.mp h
    -- a name that was seen is left out, so the head is no place of the names that follow
    have hlater : ∀ seen, first.2 ∈ seen → (firstOccurrences seen (rest.map (·.2))).Pairwise
        fun a b => ∃ p q, IsLeast (placesOf (first :: rest) a) p ∧
          IsLeast (placesOf (first :: rest) b) q ∧ p < q := by
      intro seen hseen
      refine (ih hrest seen).imp_of_mem ?_
      rintro a b ha hb ⟨p, q, hp, hq, hpq⟩
      refine ⟨p, q, isLeast_cons hp ?_, isLeast_cons hq ?_, hpq⟩
      · exact fun heq => (mem_firstOccurrences.mp ha).2 (heq ▸ hseen)
      · exact fun heq => (mem_firstOccurrences.mp hb).2 (heq ▸ hseen)
    rw [List.map_cons, firstOccurrences]
    split
    · next hseen => exact hlater seen (List.contains_iff_mem.mp hseen)
    · refine List.pairwise_cons.mpr ⟨fun name hname => ?_, hlater _ List.mem_cons_self⟩
      obtain ⟨hin, hnew⟩ := mem_firstOccurrences.mp hname
      obtain ⟨place, hplace⟩ := exists_isLeast hrest hin
      have hne : first.2 ≠ name := fun heq => hnew (heq ▸ List.mem_cons_self)
      exact ⟨first.1, place, isLeast_head hfirst, isLeast_cons hplace hne,
        hfirst _ hplace.1⟩

end Placed

def emailAt? (d : ProxyDocument) (inbound client : ℕ) : Option String :=
  (d.inbounds[inbound]?.bind (·.clients)).bind fun clients => clients[client]?.bind (·.email)

/-- Where an identity stands: the email there is the identity with blanks around it. Places are in
the order of inbounds and within these of clients. -/
def places (d : ProxyDocument) (identity : String) : Set (ℕ ×ₗ ℕ) :=
  {place | ∃ email, d.emailAt? (ofLex place).1 (ofLex place).2 = some email ∧
    Text.IsTrimmed email.toList identity.toList}

section Places

variable {d : ProxyDocument} {place : ℕ ×ₗ ℕ}

def inboundEmails (inbound : ProxyInbound × ℕ) : List ((ℕ ×ₗ ℕ) × String) :=
  (inbound.1.clients.getD []).zipIdx.filterMap fun client =>
    client.1.email.map fun email => (toLex (inbound.2, client.2), email)

def placedEmails (d : ProxyDocument) : List ((ℕ ×ₗ ℕ) × String) :=
  d.inbounds.zipIdx.flatMap inboundEmails

theorem placedEmails_map (d : ProxyDocument) : d.placedEmails.map (·.2) = d.emails := by
  have hinbound : ∀ inbound : ProxyInbound × ℕ, (inboundEmails inbound).map (·.2) =
      (inbound.1.clients.getD []).filterMap (·.email) := by
    intro inbound
    rw [inboundEmails, List.map_filterMap]
    conv_rhs => rw [← List.zipIdx_map_fst 0 (inbound.1.clients.getD []), List.filterMap_map]
    congr 1
    funext client
    rw [Option.map_map]
    exact Option.map_id'
  rw [placedEmails, emails, List.map_flatMap, List.filterMap_flatMap]
  conv_rhs => rw [← List.zipIdx_map_fst 0 d.inbounds, List.flatMap_map]
  simp only [hinbound]

theorem mem_inboundEmails {inbound : ProxyInbound × ℕ} {email : String} :
    (place, email) ∈ inboundEmails inbound ↔ inbound.2 = (ofLex place).1 ∧
      (inbound.1.clients.bind fun clients =>
        clients[(ofLex place).2]?.bind (·.email)) = some email := by
  have hclient : ∀ (index : ℕ) (client : ProxyClient),
      (inbound.1.clients.getD [])[index]? = some client ↔
        ∃ clients, inbound.1.clients = some clients ∧ clients[index]? = some client := by
    intro index client
    cases inbound.1.clients with
    | none => simp
    | some clients => simp
  simp only [inboundEmails, List.mem_filterMap, List.mem_zipIdx_iff_getElem?,
    Option.map_eq_some_iff, Option.bind_eq_some_iff, hclient, Prod.mk.injEq]
  constructor
  · rintro ⟨client, ⟨clients, hclients, hget⟩, _, hemail, rfl, rfl⟩
    exact ⟨rfl, clients, hclients, client.1, hget, hemail⟩
  · rintro ⟨hinbound, clients, hclients, client, hget, hemail⟩
    refine ⟨(client, (ofLex place).2), ⟨clients, hclients, hget⟩, email, hemail, ?_, rfl⟩
    rw [hinbound]
    rfl

theorem mem_placedEmails {email : String} :
    (place, email) ∈ d.placedEmails ↔ d.emailAt? (ofLex place).1 (ofLex place).2 = some email := by
  simp only [placedEmails, emailAt?, List.mem_flatMap, mem_inboundEmails,
    List.mem_zipIdx_iff_getElem?]
  constructor
  · rintro ⟨inbound, hinbound, hplace, hemail⟩
    rw [← hplace, hinbound]
    exact hemail
  · intro h
    obtain ⟨clients, hclients, hemail⟩ := Option.bind_eq_some_iff.mp h
    obtain ⟨inbound, hinbound, hsome⟩ := Option.bind_eq_some_iff.mp hclients
    refine ⟨(inbound, (ofLex place).1), hinbound, rfl, ?_⟩
    rw [hsome]
    exact hemail

theorem pairwise_zipIdx {α : Type} (items : List α) :
    items.zipIdx.Pairwise fun a b => a.2 < b.2 := by
  have h := List.pairwise_lt_range' (s := 0) (n := items.length)
  rw [← List.zipIdx_map_snd 0 items] at h
  exact List.pairwise_map.mp h

theorem placedEmails_pairwise (d : ProxyDocument) :
    d.placedEmails.Pairwise fun a b => a.1 < b.1 := by
  rw [placedEmails, List.pairwise_flatMap]
  constructor
  · intro inbound _
    rw [inboundEmails, List.pairwise_filterMap]
    refine (pairwise_zipIdx _).imp fun hclients a ha b hb => ?_
    obtain ⟨_, -, rfl⟩ := Option.map_eq_some_iff.mp ha
    obtain ⟨_, -, rfl⟩ := Option.map_eq_some_iff.mp hb
    exact Prod.Lex.toLex_lt_toLex.mpr (Or.inr ⟨rfl, hclients⟩)
  · refine (pairwise_zipIdx _).imp fun hinbounds a ha b hb => ?_
    obtain ⟨hfirst, -⟩ := mem_inboundEmails.mp ha
    obtain ⟨hsecond, -⟩ := mem_inboundEmails.mp hb
    refine Prod.Lex.lt_iff.mpr (Or.inl ?_)
    rwa [← hfirst, ← hsecond]

def placedNames (d : ProxyDocument) : List ((ℕ ×ₗ ℕ) × String) :=
  (d.placedEmails.map fun e => (e.1, Text.trim e.2)).filter fun e => !e.2.isEmpty

theorem placedNames_pairwise (d : ProxyDocument) :
    d.placedNames.Pairwise fun a b => a.1 < b.1 := by
  refine List.Pairwise.filter _ (List.pairwise_map.mpr ?_)
  exact d.placedEmails_pairwise

theorem identities_eq (d : ProxyDocument) :
    d.identities = firstOccurrences [] (d.placedNames.map (·.2)) := by
  have hemails : d.emails.map Text.trim =
      (d.placedEmails.map fun e => (e.1, Text.trim e.2)).map (·.2) := by
    rw [← placedEmails_map, List.map_map, List.map_map]
    rfl
  rw [identities, hemails, List.filter_map]
  rfl

theorem mem_placedNames {identity : String} :
    (place, identity) ∈ d.placedNames ↔ identity ≠ "" ∧ place ∈ d.places identity := by
  have hplace : (place, identity) ∈ d.placedEmails.map (fun e => (e.1, Text.trim e.2)) ↔
      place ∈ d.places identity := by
    simp only [places, List.mem_map, Prod.exists, Prod.mk.injEq, Set.mem_ofPred_eq,
      ← mem_placedEmails, ← Text.trim_eq_iff]
    constructor
    · rintro ⟨_, email, hemail, rfl, htrim⟩
      exact ⟨email, hemail, htrim⟩
    · rintro ⟨email, hemail, htrim⟩
      exact ⟨place, email, hemail, rfl, htrim⟩
  rw [placedNames, List.mem_filter, hplace, and_comm, Bool.not_eq_true',
    String.isEmpty_eq_false_iff]

theorem placesOf_placedNames {identity : String} (h : identity ≠ "") :
    placesOf d.placedNames identity = d.places identity := by
  ext place
  exact mem_placedNames.trans (and_iff_right h)

theorem mem_identities {identity : String} :
    identity ∈ d.identities ↔ identity ≠ "" ∧ (d.places identity).Nonempty := by
  rw [identities_eq, mem_firstOccurrences]
  simp only [List.not_mem_nil, not_false_eq_true, and_true, List.mem_map, Prod.exists,
    exists_eq_right, mem_placedNames]
  exact exists_and_left

end Places

/-- A document lists each identity once. The identities of a document are the non-empty emails
without the blanks around them, ordered by the places where they stand first; and they are what is
read from every file that holds the document. -/
theorem identities_listed_once (d : ProxyDocument) :
    d.identities.Nodup ∧
    (∀ identity ∈ d.identities, identity ≠ "" ∧
      (∀ c ∈ identity.toList.head?, Text.isBlank c = false) ∧
      ∀ c ∈ identity.toList.getLast?, Text.isBlank c = false) ∧
    (∀ identity, identity ∈ d.identities ↔ identity ≠ "" ∧ (d.places identity).Nonempty) ∧
    (d.identities.Pairwise fun a b =>
      ∃ p q, IsLeast (d.places a) p ∧ IsLeast (d.places b) q ∧ p < q) ∧
    ∀ path octets text, fileText (.ok octets) = .ok text → read text = .ok d →
      Roster.parse path octets = .ok d.identities := by
  refine ⟨?_, ?_, fun _ => mem_identities, ?_, ?_⟩
  · rw [identities_eq]
    exact firstOccurrences_nodup
  · intro identity hid
    obtain ⟨hne, place, email, -, htrimmed⟩ := mem_identities.mp hid
    exact ⟨hne, htrimmed.starts, htrimmed.ends⟩
  · have hordered := firstOccurrences_pairwise d.placedNames_pairwise []
    rw [← identities_eq] at hordered
    refine hordered.imp_of_mem ?_
    rintro a b ha hb ⟨p, q, hp, hq, hpq⟩
    rw [placesOf_placedNames (mem_identities.mp ha).1] at hp
    rw [placesOf_placedNames (mem_identities.mp hb).1] at hq
    exact ⟨p, q, hp, hq, hpq⟩
  · intro path octets text htext hread
    rw [Roster.parse, htext]
    change (do
      let document ← Outcome.within s!"parsing proxy config {path}" (read text)
      return document.identities) = .ok d.identities
    rw [hread]
    rfl

/-- An inbound without settings, a client without email, a blank email, and one identity in two
inbounds with other blanks around it. -/
def repeated : ProxyDocument where
  inbounds := [⟨none⟩, ⟨some [⟨some " a"⟩, ⟨none⟩, ⟨some "b"⟩]⟩,
    ⟨some [⟨some "a\t"⟩, ⟨some "  "⟩, ⟨some "c"⟩]⟩]

def repeatedText : String :=
  let client (email : String) : Json := .object [("email", .ofString email)]
  let inbound (clients : List Json) : Json :=
    .object [("settings", .object [("clients", .arr clients)])]
  (Json.object [("inbounds", .arr [.object [], inbound [client " a", .object [], client "b"],
    inbound [client "a\t", client "  ", client "c"]])]).compact

theorem identities_listed_once_of_repeated :
    repeated.identities = ["a", "b", "c"] ∧ "a" ∈ repeated.identities ∧ "a" ≠ "" ∧
    (∃ p q, IsLeast (repeated.places "a") p ∧ IsLeast (repeated.places "c") q ∧ p < q) ∧
    Roster.parse "proxy.json" (repeatedText.toList.map fun c => c.toNat.toUInt8) =
      .ok ["a", "b", "c"] := by
  have hlist : repeated.identities = ["a", "b", "c"] := by decide +kernel
  have htext : fileText (.ok (repeatedText.toList.map fun c => c.toNat.toUInt8)) =
      .ok repeatedText := by decide +kernel
  have hread : read repeatedText = .ok repeated := by decide +kernel
  obtain ⟨-, hclean, -, hordered, hparse⟩ := identities_listed_once repeated
  have ha : "a" ∈ repeated.identities := by rw [hlist]; decide
  rw [hlist] at hordered
  refine ⟨hlist, ha, (hclean "a" ha).1, ?_, hlist ▸ hparse _ _ _ htext hread⟩
  exact (List.pairwise_cons.mp hordered).1 "c" (by decide)

end ProxyDocument

end TrafficMeter
