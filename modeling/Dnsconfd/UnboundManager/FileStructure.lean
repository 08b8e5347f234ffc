import Dnsconfd.UnboundManager.Operations
import Dnsconfd.Library.Lines
import Dnsconfd.WellFormed

/-!
# The structure of generated files

Both unbound.conf and resolv.conf are read line by line, and a line of unbound.conf is an attribute
with at most one value, which may be quoted.  Domains, names of servers and search domains are
written into these files without being escaped.  Read back, the zones of unbound.conf are the wanted
ones exactly if every domain with used servers can be quoted and every name that is written is one
word (`readConf_generateForwardZones_iff`), and resolv.conf has the wanted lines exactly if no search
domain has a newline in it (`readLines_resolvConfText_iff`).
-/

namespace Dnsconfd

open Library

/-! ## Reading files back -/

/-- What separates the words of a line of unbound.conf. -/
def isConfBlank (c : Char) : Bool :=
  c = ' ' || c = '\t' || c = '\r'

/-- The lines of a file. -/
def readLines (text : String) : List String :=
  (lines '\n' text.toList).map String.ofList

/-- The words of unbound.conf, line by line. -/
def readConf (text : String) : List (List String) :=
  (lines '\n' text.toList).map fun line => (words isConfBlank '"' line).map String.ofList

/-- The text of lines of unbound.conf. -/
def confText (confLines : List ConfLine) : String :=
  String.join (confLines.map fun line => line.text ++ "\n")

/-- The attribute that a line is meant to be and its value. -/
def ConfLine.meant : ConfLine → List String
  | server => ["server:"]
  | moduleConfig modules => ["module-config:", modules]
  | interface address => ["interface:", address]
  | doNotQueryAddress => ["do-not-query-address:", "127.0.0.1/8"]
  | tlsCertBundle path => ["tls-cert-bundle:", path]
  | forwardZone => ["forward-zone:"]
  | name domain => ["name:", domain]
  | forwardAddr token => ["forward-addr:", token]
  | forwardAddrQuoted token => ["forward-addr:", token]
  | forwardTlsUpstream tls => ["forward-tls-upstream:", if tls then "yes" else "no"]
  | rpz => ["rpz:"]
  | master address => ["master:", address]
  | allowNotify address => ["allow-notify:", address]
  | zonefile path => ["zonefile:", path]

/-- A text that can be quoted. -/
def IsQuotable (text : String) : Prop :=
  '\n' ∉ text.toList ∧ '"' ∉ text.toList

/-- A text without newlines, blanks and quotes. -/
def IsWord (text : String) : Prop :=
  '\n' ∉ text.toList ∧ IsPlainWord isConfBlank '"' text.toList

instance (text : String) : Decidable (IsQuotable text) :=
  inferInstanceAs (Decidable ('\n' ∉ text.toList ∧ '"' ∉ text.toList))

instance (text : String) : Decidable (IsWord text) :=
  inferInstanceAs (Decidable ('\n' ∉ text.toList ∧ IsPlainWord isConfBlank '"' text.toList))

/-- A line whose value is as it is meant when it is read back. -/
def ConfLine.IsClean : ConfLine → Prop
  | server | doNotQueryAddress | forwardZone | forwardTlsUpstream _ | rpz => True
  | moduleConfig value | name value | forwardAddrQuoted value | zonefile value => IsQuotable value
  | interface value | tlsCertBundle value | forwardAddr value | master value | allowNotify value =>
    value ≠ "" ∧ IsWord value

lemma map_ofList_eq_singleton {ws : List (List Char)} {value : String} :
    ws.map String.ofList = [value] ↔ ws = [value.toList] := by
  constructor
  · intro h
    obtain ⟨w, rfl, rfl⟩ := List.map_eq_singleton_iff.mp h
    rw [String.toList_ofList]
  · rintro rfl
    rw [List.map_singleton, String.ofList_toList]

/-- A keyword between blanks. -/
def IsKeyword (lead keyword : String) : Prop :=
  lead = "\t" ++ keyword ++ " " ∧ keyword ≠ "" ∧ IsWord keyword

instance (lead keyword : String) : Decidable (IsKeyword lead keyword) :=
  inferInstanceAs (Decidable (lead = "\t" ++ keyword ++ " " ∧ keyword ≠ "" ∧ IsWord keyword))

/-- Behind a keyword only the value matters. -/
lemma IsKeyword.read_iff {lead keyword : String} (h : IsKeyword lead keyword) {rest value : String} :
    ('\n' ∉ (lead ++ rest).toList ∧
      (words isConfBlank '"' (lead ++ rest).toList).map String.ofList = [keyword, value]) ↔
    '\n' ∉ rest.toList ∧ words isConfBlank '"' rest.toList = [value.toList] := by
  obtain ⟨rfl, hne, hnewline, hplain⟩ := h
  have hnil : keyword.toList ≠ [] := by simpa using hne
  have htext : ("\t" ++ keyword ++ " " ++ rest).toList =
      '\t' :: (keyword.toList ++ ' ' :: rest.toList) := by
    simp
  have hwords : (words isConfBlank '"' ("\t" ++ keyword ++ " " ++ rest).toList).map String.ofList =
      keyword :: (words isConfBlank '"' rest.toList).map String.ofList := by
    rw [htext, words_keyword hnil hplain rfl rfl, List.map_cons, String.ofList_toList]
  have hline : '\n' ∉ ("\t" ++ keyword ++ " " ++ rest).toList ↔ '\n' ∉ rest.toList := by
    rw [htext]
    simp [hnewline]
  rw [hwords, hline, List.cons_eq_cons, and_iff_right rfl, map_ofList_eq_singleton]

/-- A line with a value that is not quoted. -/
lemma IsKeyword.unquoted_iff {lead keyword : String} (h : IsKeyword lead keyword) (value : String) :
    ('\n' ∉ (lead ++ value).toList ∧
      (words isConfBlank '"' (lead ++ value).toList).map String.ofList = [keyword, value]) ↔
    value ≠ "" ∧ IsWord value := by
  have hempty : value.toList ≠ [] ↔ value ≠ "" := by simp
  rw [h.read_iff, words_eq_singleton_iff, hempty, IsWord]
  tauto

/-- A line with a quoted value. -/
lemma IsKeyword.quoted_iff {lead keyword : String} (h : IsKeyword lead keyword) (value : String) :
    ('\n' ∉ (lead ++ "\"" ++ value ++ "\"").toList ∧
      (words isConfBlank '"' (lead ++ "\"" ++ value ++ "\"").toList).map String.ofList =
        [keyword, value]) ↔
    IsQuotable value := by
  have hrest : ("\"" ++ value ++ "\"").toList = '"' :: (value.toList ++ ['"']) := by simp
  have hline : '\n' ∉ '"' :: (value.toList ++ ['"']) ↔ '\n' ∉ value.toList := by simp
  have hassoc : lead ++ "\"" ++ value ++ "\"" = lead ++ ("\"" ++ value ++ "\"") := by
    simp only [String.append_assoc]
  rw [hassoc, h.read_iff, hrest, words_quoted_eq_singleton_iff rfl, hline, IsQuotable]

/-- What a line is read back as, whatever its kind. -/
lemma ConfLine.isClean_iff (line : ConfLine) :
    ('\n' ∉ line.text.toList ∧
      (words isConfBlank '"' line.text.toList).map String.ofList = line.meant) ↔
    line.IsClean := by
  cases line with
  | server | forwardZone | rpz | doNotQueryAddress => exact iff_of_true (by decide) trivial
  | forwardTlsUpstream tls => cases tls <;> exact iff_of_true (by decide) trivial
  | moduleConfig value =>
    exact (by decide : IsKeyword "\tmodule-config: " "module-config:").quoted_iff value
  | name value => exact (by decide : IsKeyword "\tname: " "name:").quoted_iff value
  | forwardAddrQuoted value =>
    exact (by decide : IsKeyword "\tforward-addr: " "forward-addr:").quoted_iff value
  | zonefile value => exact (by decide : IsKeyword "\tzonefile: " "zonefile:").quoted_iff value
  | interface value => exact (by decide : IsKeyword "\tinterface: " "interface:").unquoted_iff value
  | tlsCertBundle value =>
    exact (by decide : IsKeyword "\ttls-cert-bundle: " "tls-cert-bundle:").unquoted_iff value
  | forwardAddr value =>
    exact (by decide : IsKeyword "\tforward-addr: " "forward-addr:").unquoted_iff value
  | master value => exact (by decide : IsKeyword "\tmaster: " "master:").unquoted_iff value
  | allowNotify value =>
    exact (by decide : IsKeyword "\tallow-notify: " "allow-notify:").unquoted_iff value

/-- The text of lines is that of their texts, line by line. -/
lemma toList_confText (confLines : List ConfLine) :
    (confText confLines).toList = unlines '\n' (confLines.map fun line => line.text.toList) := by
  simp [confText, unlines, String.toList_join, List.flatMap_map]

/-- Lines are read back as they are meant exactly if they are clean. -/
theorem readConf_confText_iff (confLines : List ConfLine) :
    readConf (confText confLines) = confLines.map ConfLine.meant ↔
      ∀ line ∈ confLines, line.IsClean := by
  have hlength : (confLines.map ConfLine.meant).length =
      (confLines.map fun line => line.text.toList).length := by
    simp
  rw [readConf, toList_confText, map_lines_unlines_eq_iff hlength, List.map_map, List.map_inj_left,
    List.forall_mem_map, ← forall₂_and]
  refine forall₂_congr fun line hline => ?_
  exact line.isClean_iff

/-- A word that is not empty and has no blank. -/
def IsUnquotedWord (w : String) : Prop :=
  w ≠ "" ∧ ∀ c ∈ w.toList, isConfBlank c = false

/-- A line with a value that is not quoted, if it has no quote and is not read as it is meant: what is
read are unquoted words, but the value is none. -/
lemma IsKeyword.unquoted_words {lead keyword : String} (h : IsKeyword lead keyword) {value : String}
    (hnewline : '\n' ∉ (lead ++ value).toList) (hquote : '"' ∉ value.toList)
    (hvalue : ¬ (value ≠ "" ∧ IsWord value)) :
    ¬ (∀ w ∈ [keyword, value], IsUnquotedWord w) ∧
      ∀ w ∈ (words isConfBlank '"' (lead ++ value).toList).map String.ofList, IsUnquotedWord w := by
  obtain ⟨rfl, -, -, hplain⟩ := h
  have hline : '"' ∉ ("\t" ++ keyword ++ " " ++ value).toList := by
    have hkeyword : '"' ∉ keyword.toList := fun hmem => (hplain _ hmem).2 rfl
    simpa [hkeyword] using hquote
  constructor
  · intro hwords
    obtain ⟨hne, hblank⟩ := hwords value (by simp)
    refine hvalue ⟨hne, fun hmem => hnewline ?_, fun c hc => ⟨hblank c hc, ?_⟩⟩
    · rw [String.toList_append]
      exact List.mem_append_right _ hmem
    · rintro rfl
      exact hquote hc
  · intro w hw
    obtain ⟨word, hword, rfl⟩ := List.mem_map.mp hw
    refine ⟨?_, ?_⟩
    · rw [Ne, String.ofList_eq_empty_iff]
      exact ne_nil_of_mem_wordsFrom (s := .between) rfl (by simp) hline hword
    · rw [String.toList_ofList]
      exact not_isBlank_of_mem_wordsFrom (s := .between) rfl (fun _ hc => by cases hc) hline hword

/-- If the text of a line has no newline and its words no quote, it is read as it is meant, or what is
read are unquoted words while what is meant are not. -/
lemma ConfLine.read_cases {line : ConfLine} (hnewline : '\n' ∉ line.text.toList)
    (hquote : ∀ w ∈ line.meant, '"' ∉ w.toList) (hunclean : ¬ line.IsClean) :
    ¬ (∀ w ∈ line.meant, IsUnquotedWord w) ∧
      ∀ w ∈ (words isConfBlank '"' line.text.toList).map String.ofList, IsUnquotedWord w := by
  have hquotable : ∀ lead value : String, '\n' ∉ (lead ++ "\"" ++ value ++ "\"").toList →
      '"' ∉ value.toList → IsQuotable value := by
    intro lead value hline hvalue
    refine ⟨fun hmem => hline ?_, hvalue⟩
    simp [hmem]
  cases line with
  | server | forwardZone | rpz | doNotQueryAddress => exact absurd trivial hunclean
  | forwardTlsUpstream tls => exact absurd trivial hunclean
  | moduleConfig value =>
    exact absurd (hquotable "\tmodule-config: " value hnewline
      (hquote value (by simp [ConfLine.meant]))) hunclean
  | name value =>
    exact absurd (hquotable "\tname: " value hnewline (hquote value (by simp [ConfLine.meant])))
      hunclean
  | forwardAddrQuoted value =>
    exact absurd (hquotable "\tforward-addr: " value hnewline
      (hquote value (by simp [ConfLine.meant]))) hunclean
  | zonefile value =>
    exact absurd (hquotable "\tzonefile: " value hnewline (hquote value (by simp [ConfLine.meant])))
      hunclean
  | interface value =>
    exact (by decide : IsKeyword "\tinterface: " "interface:").unquoted_words hnewline
      (hquote value (by simp [ConfLine.meant])) hunclean
  | tlsCertBundle value =>
    exact (by decide : IsKeyword "\ttls-cert-bundle: " "tls-cert-bundle:").unquoted_words hnewline
      (hquote value (by simp [ConfLine.meant])) hunclean
  | forwardAddr value =>
    exact (by decide : IsKeyword "\tforward-addr: " "forward-addr:").unquoted_words hnewline
      (hquote value (by simp [ConfLine.meant])) hunclean
  | master value =>
    exact (by decide : IsKeyword "\tmaster: " "master:").unquoted_words hnewline
      (hquote value (by simp [ConfLine.meant])) hunclean
  | allowNotify value =>
    exact (by decide : IsKeyword "\tallow-notify: " "allow-notify:").unquoted_words hnewline
      (hquote value (by simp [ConfLine.meant])) hunclean

/-- It does not help to read lines in another order than they are meant. -/
theorem readConf_confText_perm_iff (confLines : List ConfLine) :
    (readConf (confText confLines)).Perm (confLines.map ConfLine.meant) ↔
      ∀ line ∈ confLines, line.IsClean := by
  constructor
  swap
  · exact fun h => List.Perm.of_eq ((readConf_confText_iff confLines).mpr h)
  intro hperm
  have hquote : ∀ line ∈ confLines, ∀ w ∈ line.meant, '"' ∉ w.toList := by
    intro line hline w hw
    have hread := hperm.mem_iff.mpr (List.mem_map_of_mem hline)
    obtain ⟨l, -, hl⟩ := List.mem_map.mp hread
    rw [← hl] at hw
    obtain ⟨word, hword, rfl⟩ := List.mem_map.mp hw
    rw [String.toList_ofList]
    exact quote_not_mem_wordsFrom (s := .between) List.not_mem_nil hword
  have hnewline : ∀ l ∈ confLines.map fun line => line.text.toList, '\n' ∉ l := by
    refine not_mem_of_length_lines_unlines ?_
    have hlength := hperm.length_eq
    rw [readConf, toList_confText, List.length_map, List.length_map] at hlength
    rw [hlength, List.length_map]
  rw [readConf, toList_confText, lines_unlines hnewline, List.map_map] at hperm
  have hsame := forall_eq_of_perm_map (P := fun ws => ∀ w ∈ ws, IsUnquotedWord w) hperm.symm
    fun line hline hne => ConfLine.read_cases (hnewline _ (List.mem_map_of_mem hline))
      (hquote line hline) fun hclean => hne ((line.isClean_iff.mpr hclean).2.symm)
  intro line hline
  exact line.isClean_iff.mp ⟨hnewline _ (List.mem_map_of_mem hline), (hsame line hline).symm⟩

/-! ## Zones -/

/-- The domains with used servers, in the order in which they are visited. -/
def usedDomains (order : Enumeration ServerEntry) (domainToServers : ServerTable) (mode : Mode) :
    List (String × List ServerUri) :=
  (order.visit domainToServers.entries).filterMap fun entry =>
    (usedServersOf mode entry.1 entry.2).map fun used => (entry.1, used)

lemma mem_usedDomains {order : Enumeration ServerEntry} {domainToServers : ServerTable} {mode : Mode}
    {zone : String × List ServerUri} :
    zone ∈ usedDomains order domainToServers mode ↔ ∃ entry ∈ order.visit domainToServers.entries,
      entry.1 = zone.1 ∧ getUsedServers entry.2 mode entry.1 = zone.2 ∧
        getUsedServers entry.2 mode entry.1 ≠ [] := by
  obtain ⟨domain, used⟩ := zone
  simp only [usedDomains, List.mem_filterMap, Option.map_eq_some_iff, Prod.mk.injEq,
    usedServersOf_eq_some_iff]
  constructor
  · rintro ⟨entry, hentry, used', ⟨rfl, hne⟩, hdomain, rfl⟩
    exact ⟨entry, hentry, hdomain, rfl, hne⟩
  · rintro ⟨entry, hentry, hdomain, rfl, hne⟩
    exact ⟨entry, hentry, _, ⟨rfl, hne⟩, hdomain, rfl⟩

/-- The flag `root_present` tells whether the root domain is among the domains with used servers. -/
lemma any_rootPresent_iff {order : Enumeration ServerEntry} {domainToServers : ServerTable}
    {mode : Mode} :
    (order.visit domainToServers.entries).any (rootPresent mode) = true ↔
      "." ∈ (usedDomains order domainToServers mode).map Prod.fst := by
  simp only [List.any_eq_true, List.mem_map, mem_usedDomains, rootPresent, Bool.and_eq_true,
    Bool.not_eq_true', List.isEmpty_eq_false_iff, decide_eq_true_eq]
  constructor
  · rintro ⟨entry, hentry, hne, hdot⟩
    exact ⟨(entry.1, _), ⟨entry, hentry, rfl, rfl, hne⟩, hdot⟩
  · rintro ⟨⟨domain, used⟩, ⟨entry, hentry, hdomain, rfl, hne⟩, rfl⟩
    exact ⟨entry, hentry, hne, hdomain⟩

/-- No domain is visited twice. -/
lemma nodup_usedDomains (order : Enumeration ServerEntry) (domainToServers : ServerTable)
    (mode : Mode) : ((usedDomains order domainToServers mode).map Prod.fst).Nodup := by
  have hsublist : ∀ entries : List ServerEntry,
      ((entries.filterMap fun entry =>
        (usedServersOf mode entry.1 entry.2).map fun used => (entry.1, used)).map
          Prod.fst).Sublist (entries.map Sigma.fst) := by
    intro entries
    induction entries with
    | nil => exact List.Sublist.refl _
    | cons entry entries ih =>
      rw [List.filterMap_cons]
      cases usedServersOf mode entry.1 entry.2 with
      | none => exact ih.cons _
      | some used => exact ih.cons_cons _
  exact List.Nodup.sublist (hsublist _) (Table.nodupKeys_visit order domainToServers)

/-- The wanted block of a zone: its name, an address for each used server and whether they are
reached over TLS. -/
def wantedBlock (net : Inet) (domain : String) (used : List ServerUri) : List (List String) :=
  [["forward-zone:"], ["name:", domain]] ++
    used.map (fun server => ["forward-addr:", serverToUnboundString net server]) ++
    [["forward-tls-upstream:", if used.any (fun server => server.protocol = .tls) then "yes"
      else "no"]]

/-- The wanted zones: one block for each domain with used servers, and the default one if the root
domain has none. -/
def wantedZones (net : Inet) (order : Enumeration ServerEntry) (domainToServers : ServerTable)
    (mode : Mode) : List (List String) :=
  (usedDomains order domainToServers mode).flatMap (fun zone => wantedBlock net zone.1 zone.2) ++
    if "." ∈ (usedDomains order domainToServers mode).map Prod.fst then []
    else [["forward-zone:"], ["name:", "."], ["forward-addr:", "127.0.0.1"]]

/-- The lines of the zones are meant to be the wanted ones. -/
lemma map_meant_generateForwardZones (net : Inet) (order : Enumeration ServerEntry)
    (domainToServers : ServerTable) (mode : Mode) :
    (generateForwardZones net order domainToServers mode).map ConfLine.meant =
      wantedZones net order domainToServers mode := by
  have hentry : ∀ entry : ServerEntry, (zoneEntryLines net mode entry).map ConfLine.meant =
      (((usedServersOf mode entry.1 entry.2).map fun used => (entry.1, used)).toList).flatMap
        fun zone => wantedBlock net zone.1 zone.2 := by
    intro entry
    unfold zoneEntryLines usedServersOf
    cases getUsedServers entry.2 mode entry.1 with
    | nil => rfl
    | cons server rest => simp [forwardZoneLines, wantedBlock, ConfLine.meant, Function.comp_def]
  have hblocks : ((order.visit domainToServers.entries).flatMap (zoneEntryLines net mode)).map
      ConfLine.meant =
      (usedDomains order domainToServers mode).flatMap fun zone => wantedBlock net zone.1 zone.2 := by
    rw [List.map_flatMap, usedDomains, List.filterMap_eq_flatMap_toList, List.flatMap_assoc]
    exact List.flatMap_congr fun entry _ => hentry entry
  unfold generateForwardZones wantedZones
  rw [List.map_append, hblocks]
  by_cases h : (order.visit domainToServers.entries).any (rootPresent mode) = true
  · rw [if_pos h, if_pos (any_rootPresent_iff.mp h)]
    rfl
  · rw [if_neg h, if_neg fun hmem => h (any_rootPresent_iff.mpr hmem)]
    rfl

/-- `inet_ntop` prints words. -/
structure Inet.PrintsWords (net : Inet) : Prop where
  ntop4 : ∀ a, net.ntop4 a ≠ "" ∧ IsWord (net.ntop4 a)
  ntop6 : ∀ a, net.ntop6 a ≠ "" ∧ IsWord (net.ntop6 a)

lemma isWord_append {a b : String} : IsWord (a ++ b) ↔ IsWord a ∧ IsWord b := by
  simp only [IsWord, IsPlainWord, String.toList_append, List.mem_append, not_or, or_imp, forall_and]
  tauto

/-- Numbers are printed as words. -/
lemma isWord_toString (n : ℕ) : IsWord (toString n) := by
  have hdigit : ∀ c ∈ (toString n).toList, c.isDigit = true := by
    rw [Nat.toString_eq_repr, Nat.toList_repr]
    exact fun c hc => Nat.isDigit_of_mem_toDigits (by decide) (by decide) hc
  refine ⟨fun hmem => absurd (hdigit _ hmem) (by decide), fun c hc => ?_⟩
  have hc' := hdigit c hc
  refine ⟨?_, ?_⟩
  · rw [← Bool.not_eq_true]
    intro hblank
    simp only [isConfBlank, Bool.or_eq_true, decide_eq_true_eq] at hblank
    rcases hblank with (rfl | rfl) | rfl <;> exact absurd hc' (by decide)
  · rintro rfl
    exact absurd hc' (by decide)

/-- A server is written as one word exactly if its name is one, where it is written. -/
lemma isWord_serverToUnboundString_iff {net : Inet} (hnet : net.PrintsWords) {server : ServerUri}
    (hip : server.address.isIp = true) :
    (serverToUnboundString net server ≠ "" ∧ IsWord (serverToUnboundString net server)) ↔
      (server.protocol = .tls → ∀ name ∈ server.name, IsWord name) := by
  obtain ⟨hne, hword⟩ : (ipToStr net server.address).getD "" ≠ "" ∧
      IsWord ((ipToStr net server.address).getD "") := by
    cases haddress : server.address with
    | unspec => rw [haddress] at hip; cases hip
    | inet a port => exact hnet.ntop4 a
    | inet6 a port => exact hnet.ntop6 a
  have hnonempty : ∀ rest : String, (ipToStr net server.address).getD "" ++ rest ≠ "" := by
    intro rest h
    exact hne (String.append_eq_empty_iff.mp h).1
  have hport : ∀ port : UInt16, IsWord ("@" ++ toString port.toNat) := fun port =>
    isWord_append.mpr ⟨by decide, isWord_toString _⟩
  unfold serverToUnboundString
  by_cases htls : server.protocol = .tls
  · -- the name is written behind the port
    have hword' : IsWord ((ipToStr net server.address).getD "" ++
        if server.address.port ≠ 0 then "@" ++ toString server.address.port.toNat else "@853") := by
      refine isWord_append.mpr ⟨hword, ?_⟩
      split
      · exact hport _
      · decide
    simp only [if_pos htls]
    cases hname : server.name with
    | none =>
      refine iff_of_true ⟨?_, ?_⟩ (fun _ name hmem => by cases hmem)
      · rw [String.append_assoc]
        exact hnonempty _
      · exact isWord_append.mpr ⟨hword', by decide⟩
    | some name =>
      have hhash : IsWord ("#" ++ name) ↔ IsWord name :=
        isWord_append.trans (and_iff_right (by decide))
      rw [String.append_assoc, and_iff_right (hnonempty _), ← String.append_assoc]
      simp only [isWord_append (a := _ ++ _), and_iff_right hword', hhash, forall_const, htls,
        Option.mem_some_iff, forall_eq']
  · simp only [if_neg htls]
    refine iff_of_true ?_ (fun h => absurd h htls)
    split
    · rw [String.append_assoc]
      exact ⟨hnonempty _, isWord_append.mpr ⟨hword, hport _⟩⟩
    · exact ⟨hne, hword⟩

/-- The domains with used servers can be quoted, and the names that are written are words. -/
def ZoneTextsSafe (mode : Mode) (domainToServers : ServerTable) : Prop :=
  ∀ entry ∈ domainToServers.entries, getUsedServers entry.2 mode entry.1 ≠ [] →
    IsQuotable entry.1 ∧ ∀ server ∈ getUsedServers entry.2 mode entry.1,
      server.protocol = .tls → ∀ name ∈ server.name, IsWord name

instance (mode : Mode) (domainToServers : ServerTable) :
    Decidable (ZoneTextsSafe mode domainToServers) := by
  unfold ZoneTextsSafe
  infer_instance

/-- Read back, the zones of unbound.conf are the wanted ones exactly if the texts are safe. -/
theorem readConf_generateForwardZones_iff {net : Inet} (hnet : net.PrintsWords)
    {domainToServers : ServerTable}
    (hip : ∀ entry ∈ domainToServers.entries, ∀ server ∈ entry.2, server.address.isIp = true)
    (order : Enumeration ServerEntry) (mode : Mode) :
    readConf (confText (generateForwardZones net order domainToServers mode)) =
        wantedZones net order domainToServers mode ↔
      ZoneTextsSafe mode domainToServers := by
  rw [← map_meant_generateForwardZones, readConf_confText_iff]
  have hdefault : ∀ line ∈ defaultZoneLines, line.IsClean := by
    simp [defaultZoneLines, ConfLine.IsClean, IsQuotable]
  have hentry : ∀ entry ∈ domainToServers.entries,
      (∀ line ∈ zoneEntryLines net mode entry, line.IsClean) ↔
        (getUsedServers entry.2 mode entry.1 ≠ [] →
          IsQuotable entry.1 ∧ ∀ server ∈ getUsedServers entry.2 mode entry.1,
            server.protocol = .tls → ∀ name ∈ server.name, IsWord name) := by
    intro entry hmem
    have haddress : ∀ server ∈ getUsedServers entry.2 mode entry.1,
        server.address.isIp = true :=
      fun server hserver => hip entry hmem server (mem_getUsedServers hserver).1
    unfold zoneEntryLines
    split
    · rename_i hnil
      simp [hnil]
    · rename_i hne
      have hused : getUsedServers entry.2 mode entry.1 ≠ [] := hne
      rw [imp_iff_right hused]
      simp only [forwardZoneLines, List.mem_append, List.mem_cons, List.not_mem_nil, or_false,
        List.mem_map, or_imp, forall_and, forall_eq, forall_exists_index, and_imp,
        forall_apply_eq_imp_iff₂, ConfLine.IsClean, true_and, and_true]
      refine and_congr_right fun _ => ?_
      rw [← forall₂_and]
      refine forall₂_congr fun server hserver => ?_
      exact isWord_serverToUnboundString_iff hnet (haddress server hserver)
  have hlines : (∀ line ∈ generateForwardZones net order domainToServers mode, line.IsClean) ↔
      ∀ entry ∈ domainToServers.entries, ∀ line ∈ zoneEntryLines net mode entry, line.IsClean := by
    unfold generateForwardZones
    simp only [List.mem_append, List.mem_flatMap, Enumeration.mem_visit]
    constructor
    · exact fun h entry hentry line hline => h line (Or.inl ⟨entry, hentry, hline⟩)
    · rintro h line (⟨entry, hentry, hline⟩ | hline)
      · exact h entry hentry line hline
      · split at hline
        · cases hline
        · exact hdefault line hline
  rw [hlines]
  exact forall₂_congr hentry

/-! ## Search domains -/

/-- The part of resolv.conf that depends on the configuration only. -/
def resolvConfOptions (p : Platform) (config : Config) : String :=
  (match config.resolverOptions with
    | some options => "options " ++ options ++ "\n"
    | none => "") ++
    "nameserver " ++ (ipToStr p.inet config.listenAddress).getD "" ++ "\n"

/-- The wanted lines of resolv.conf: the header, one line with the search domains if there are any,
and those that the configuration asks for. -/
def wantedResolvConf (p : Platform) (config : Config) (searches : List String) : List String :=
  "#Generated by dnsconfd" ::
    ((if searches = [] then [] else ["search " ++ " ".intercalate searches]) ++
      readLines (resolvConfOptions p config))

/-- The search domains of the used servers have no newlines. -/
def SearchTextsSafe (mode : Mode) (domainToServers : ServerTable) : Prop :=
  ∀ entry ∈ domainToServers.entries, ∀ server ∈ getUsedServers entry.2 mode entry.1,
    ∀ search ∈ server.searchDomains, '\n' ∉ search.toList

instance (mode : Mode) (domainToServers : ServerTable) :
    Decidable (SearchTextsSafe mode domainToServers) := by
  unfold SearchTextsSafe
  infer_instance

/-- The search domains that are written are those of the used servers. -/
lemma mem_searchesOf {order : Enumeration ServerEntry} {domainToServers : ServerTable} {mode : Mode}
    {search : String} :
    search ∈ searchesOf order domainToServers mode ↔
      ∃ entry ∈ domainToServers.entries, ∃ server ∈ getUsedServers entry.2 mode entry.1,
        search ∈ server.searchDomains := by
  have hsearch : ∀ (acc : List String) (s : String),
      search ∈ (if s ∈ acc then acc else acc ++ [s]) ↔ search ∈ acc ∨ search = s := by
    intro acc s
    split
    · rename_i hmem
      refine ⟨Or.inl, ?_⟩
      rintro (hacc | rfl)
      · exact hacc
      · exact hmem
    · simp
  have hserver : ∀ (acc : List String) (server : ServerUri),
      search ∈ appendSearches acc server ↔ search ∈ acc ∨ search ∈ server.searchDomains := by
    intro acc server
    rw [appendSearches, mem_foldl_iff hsearch]
    simp
  have hentry : ∀ (acc : List String) (entry : ServerEntry),
      search ∈ (getUsedServers entry.2 mode entry.1).foldl appendSearches acc ↔
        search ∈ acc ∨ ∃ server ∈ getUsedServers entry.2 mode entry.1,
          search ∈ server.searchDomains :=
    fun acc entry => mem_foldl_iff hserver _ acc
  rw [searchesOf, mem_foldl_iff hentry]
  simp

/-- Texts appended to one another with blanks between them. -/
lemma foldl_append_eq (lead first : String) (rest : List String) :
    rest.foldl (fun text search => text ++ " " ++ search) (lead ++ first) =
      lead ++ " ".intercalate (first :: rest) := by
  induction rest generalizing first with
  | nil => rw [String.intercalate_singleton]; rfl
  | cons search rest ih =>
    have hassoc : lead ++ first ++ " " ++ search = lead ++ (first ++ " " ++ search) := by
      rw [String.append_assoc, String.append_assoc, String.append_assoc]
    rw [List.foldl_cons, hassoc, ih]
    rfl

/-- The line with the search domains. -/
lemma searchLine_eq {searches : List String} (h : searches ≠ []) :
    searchLine searches = "search " ++ " ".intercalate searches ++ "\n" := by
  obtain ⟨first, rest, rfl⟩ := List.exists_cons_of_ne_nil h
  rw [searchLine, foldl_append_eq]

/-- A text that ends with a newline is read on its own. -/
lemma readLines_append (text rest : String) :
    readLines (text ++ "\n" ++ rest) = readLines (text ++ "\n") ++ readLines rest := by
  have hleft : (text ++ "\n" ++ rest).toList = text.toList ++ '\n' :: rest.toList := by simp
  have hright : (text ++ "\n").toList = text.toList ++ ['\n'] := by simp
  rw [readLines, hleft, lines_append, List.map_append, readLines, hright]
  rfl

/-- A text and a newline are a line of their own exactly if the text has no newline. -/
lemma readLines_append_iff {text rest : String} :
    readLines (text ++ "\n" ++ rest) = text :: readLines rest ↔ '\n' ∉ text.toList := by
  have htext : (text ++ "\n").toList = text.toList ++ ['\n'] := by simp
  have hcons : text :: readLines rest = [text] ++ readLines rest := rfl
  rw [readLines_append, hcons, List.append_left_inj, readLines, htext, map_ofList_eq_singleton,
    lines_eq_singleton_iff]

/-- The texts that are joined bring all newlines. -/
lemma newline_not_mem_searchText {searches : List String} :
    '\n' ∉ ("search " ++ " ".intercalate searches).toList ↔
      ∀ search ∈ searches, '\n' ∉ search.toList := by
  rw [String.toList_append, List.mem_append, not_or, and_iff_right (by decide)]
  induction searches with
  | nil => simp
  | cons first rest ih =>
    cases rest with
    | nil => simp
    | cons second rest =>
      rw [String.intercalate_cons_cons, String.toList_append, String.toList_append, List.mem_append,
        List.mem_append, not_or, not_or, ih, List.forall_mem_cons (a := first), and_assoc,
        and_iff_right_of_imp fun _ => (by decide : '\n' ∉ " ".toList)]

/-- The parts of resolv.conf: the header, the search domains and what the configuration asks for. -/
lemma resolvConfText_eq (p : Platform) (config : Config) (order : Enumeration ServerEntry)
    (domainToServers : ServerTable) (mode : Mode) :
    resolvConfText p config order domainToServers mode =
      "#Generated by dnsconfd" ++ "\n" ++ (searchLine (searchesOf order domainToServers mode) ++
        resolvConfOptions p config) := by
  unfold resolvConfText resolvConfOptions
  generalize searchLine (searchesOf order domainToServers mode) = searchText
  generalize (ipToStr p.inet config.listenAddress).getD "" = address
  cases config.resolverOptions with
  | none => simp only [String.append_assoc]; rfl
  | some options => simp only [String.append_assoc]; rfl

/-- resolv.conf has the wanted lines exactly if no search domain has a newline. -/
theorem readLines_resolvConfText_iff (p : Platform) (config : Config)
    (order : Enumeration ServerEntry) (domainToServers : ServerTable) (mode : Mode) :
    readLines (resolvConfText p config order domainToServers mode) =
        wantedResolvConf p config (searchesOf order domainToServers mode) ↔
      SearchTextsSafe mode domainToServers := by
  have hsafe : SearchTextsSafe mode domainToServers ↔
      ∀ search ∈ searchesOf order domainToServers mode, '\n' ∉ search.toList := by
    simp only [SearchTextsSafe, mem_searchesOf]
    constructor
    · rintro h search ⟨entry, hentry, server, hserver, hsearch⟩
      exact h entry hentry server hserver search hsearch
    · exact fun h entry hentry server hserver search hsearch =>
        h search ⟨entry, hentry, server, hserver, hsearch⟩
  have hheader : ∀ rest : String, readLines ("#Generated by dnsconfd" ++ "\n" ++ rest) =
      "#Generated by dnsconfd" :: readLines rest :=
    fun rest => readLines_append_iff.mpr (by decide)
  rw [resolvConfText_eq, hsafe, hheader, wantedResolvConf, List.cons_eq_cons, and_iff_right rfl]
  generalize searchesOf order domainToServers mode = searches
  by_cases hnil : searches = []
  · subst hnil
    refine iff_of_true ?_ (by simp)
    rw [searchLine, String.empty_append, if_pos rfl, List.nil_append]
  · rw [searchLine_eq hnil, if_neg hnil, List.singleton_append, readLines_append_iff,
      newline_not_mem_searchText]

end Dnsconfd
