import Dnsconfd.Library.Sieve
import Dnsconfd.UnboundManager.FileStructure

/-!
# Search domains in resolv.conf

`write_resolv_conf` meets the search domains of the used servers in the order in which it visits the
table (`metSearches`) and prints each the first time it meets it, behind `search ` or behind a blank
(`printSearch`).  So the line that comes out has the search domains met, each once, in the order of
their first occurrence (`searchText_printSearches`, `searchesOf_eq`).
-/

namespace Dnsconfd

open Library

/-! ## The loops that print -/

/-- The variables of the loops: the search domains in `searches_table`, the flag `first_search` and
what has been printed. -/
structure SearchPrinter where
  searchesTable : List String
  firstSearch : Bool
  printed : String

/-- Before the loops. -/
def SearchPrinter.initial : SearchPrinter where
  searchesTable := []
  firstSearch := true
  printed := ""

/-- The body of the innermost loop, for one search domain. -/
def printSearch (printer : SearchPrinter) (search : String) : SearchPrinter :=
  if search ∈ printer.searchesTable then printer
  else
    { searchesTable := printer.searchesTable ++ [search]
      firstSearch := false
      printed := printer.printed ++ ((if printer.firstSearch then "search " else " ") ++ search) }

/-- The three loops of `write_resolv_conf`. -/
def printSearches (order : Enumeration ServerEntry) (domainToServers : ServerTable) (mode : Mode) :
    SearchPrinter :=
  (order.visit domainToServers.entries).foldl (fun printer entry =>
    (getUsedServers entry.2 mode entry.1).foldl (fun printer server =>
      server.searchDomains.foldl printSearch printer) printer) .initial

/-- What is printed, with the newline behind it if there was anything. -/
def SearchPrinter.text (printer : SearchPrinter) : String :=
  if printer.firstSearch then printer.printed else printer.printed ++ "\n"

/-- The search domains of the used servers in the order in which they are met. -/
def metSearches (order : Enumeration ServerEntry) (domainToServers : ServerTable) (mode : Mode) :
    List String :=
  (order.visit domainToServers.entries).flatMap fun entry =>
    (getUsedServers entry.2 mode entry.1).flatMap ServerUri.searchDomains

/-- The loops go through the search domains that are met. -/
lemma printSearches_eq_foldl (order : Enumeration ServerEntry) (domainToServers : ServerTable)
    (mode : Mode) :
    printSearches order domainToServers mode =
      (metSearches order domainToServers mode).foldl printSearch .initial := by
  simp only [printSearches, metSearches, List.foldl_flatMap]

/-- The search domains that are written are those met, each once, in the order of their first
occurrence. -/
lemma searchesOf_eq (order : Enumeration ServerEntry) (domainToServers : ServerTable)
    (mode : Mode) :
    searchesOf order domainToServers mode =
      (metSearches order domainToServers mode).eraseDups := by
  have hstep : (fun (acc : List String) search => if search ∈ acc then acc else acc ++ [search]) =
      sieveStep fun a b => decide (a = b) := by
    funext acc search
    have hany : acc.any (fun b => decide (search = b)) = decide (search ∈ acc) := by
      rw [Bool.eq_iff_iff]
      simp
    rw [sieveStep, hany]
    simp
  rw [← sieve_eq_eraseDups]
  simp only [searchesOf, metSearches, sieve, List.foldl_flatMap, ← hstep]
  rfl

/-- The invariant of the loops: the table holds what has been kept, the flag tells whether that is
nothing, and what has been printed is the line without its newline. -/
lemma foldl_printSearch (met : List String) :
    met.foldl printSearch .initial =
      { searchesTable := met.eraseDups
        firstSearch := met.eraseDups.isEmpty
        printed := if met.eraseDups.isEmpty then ""
          else "search " ++ " ".intercalate met.eraseDups } := by
  induction met using List.reverseRecOn with
  | nil => rfl
  | append_singleton met search ih =>
    rw [List.foldl_append, ih, eraseDups_concat]
    by_cases hmem : search ∈ met
    · simp [printSearch, hmem]
    · by_cases hnil : met.eraseDups = []
      · simp [printSearch, hmem, hnil]
      · have hempty : met.eraseDups.isEmpty = false := by simpa using hnil
        have hjoined := String.intercalate_append_of_ne_nil (s := " ") hnil
          (List.cons_ne_nil search [])
        simp [printSearch, hmem, hempty, hjoined, String.append_assoc]

/-- What the loops print is the line with the search domains that are written. -/
lemma searchText_printSearches (order : Enumeration ServerEntry) (domainToServers : ServerTable)
    (mode : Mode) :
    (printSearches order domainToServers mode).text =
      searchLine (searchesOf order domainToServers mode) := by
  rw [printSearches_eq_foldl, foldl_printSearch, ← searchesOf_eq, SearchPrinter.text]
  by_cases hnil : searchesOf order domainToServers mode = []
  · simp [hnil, searchLine]
  · have hempty : (searchesOf order domainToServers mode).isEmpty = false := by simpa using hnil
    rw [searchLine_eq hnil]
    simp [hempty]

/-! ## Lines and words of resolv.conf -/

/-- The words of a line of resolv.conf: white space separates them, and nothing is quoted. -/
def resolvConfWords (line : String) : List String :=
  (words Char.isWhitespace ' ' line.toList).map String.ofList

/-- The lines of a text that begin with a keyword. -/
def linesWith (keyword text : String) : List String :=
  (readLines text).filter fun line => (resolvConfWords line).head? = some keyword

/-- A text that is not empty and free of white space. -/
def IsSearchWord (search : String) : Prop :=
  search ≠ "" ∧ ∀ c ∈ search.toList, c.isWhitespace = false

-- the characters of the text are tried, not all characters there are
instance (search : String) : Decidable (IsSearchWord search) :=
  have : Decidable (∀ c ∈ search.toList, c.isWhitespace = false) := List.decidableBAll _ _
  inferInstanceAs (Decidable (_ ∧ _))

lemma IsSearchWord.plain {search : String} (h : IsSearchWord search) :
    search.toList ≠ [] ∧ IsPlainWord Char.isWhitespace ' ' search.toList := by
  refine ⟨by simpa using h.1, fun c hc => ⟨h.2 c hc, ?_⟩⟩
  rintro rfl
  exact absurd (h.2 ' ' hc) (by decide)

/-- Search words that follow a keyword, joined by blanks, are the words of the line. -/
lemma resolvConfWords_intercalate {ws : List String} (h : ∀ w ∈ ws, IsSearchWord w) :
    resolvConfWords (" ".intercalate ws) = ws := by
  have hplain : ∀ w ∈ ws.map String.toList, w ≠ [] ∧ IsPlainWord Char.isWhitespace ' ' w := by
    intro w hw
    obtain ⟨search, hsearch, rfl⟩ := List.mem_map.mp hw
    exact (h search hsearch).plain
  have htoList : (" ".intercalate ws).toList = [' '].intercalate (ws.map String.toList) := by
    rw [String.toList_intercalate]
    rfl
  rw [resolvConfWords, htoList, words_intercalate (by decide) hplain, List.map_map]
  simp [Function.comp_def]

/-- A line begins with its keyword, whatever follows. -/
lemma head_resolvConfWords {keyword : String} (h : IsSearchWord keyword) (rest : String) :
    (resolvConfWords (keyword ++ " " ++ rest)).head? = some keyword := by
  obtain ⟨hne, hplain⟩ := h.plain
  have hline : (keyword ++ " " ++ rest).toList = keyword.toList ++ ' ' :: rest.toList := by simp
  have hfirst : words Char.isWhitespace ' ' (keyword.toList ++ ' ' :: rest.toList) =
      keyword.toList :: words Char.isWhitespace ' ' rest.toList := by
    obtain ⟨c, cs, hcs⟩ := List.exists_cons_of_ne_nil hne
    rw [hcs] at hplain ⊢
    obtain ⟨hblank, hquote⟩ := hplain c List.mem_cons_self
    have htail : IsPlainWord Char.isWhitespace ' ' cs :=
      fun d hd => hplain d (List.mem_cons_of_mem c hd)
    rw [List.cons_append, words, wordsFrom, if_neg (by simp [hblank]), if_neg hquote,
      wordsFrom_word_append htail (by decide), List.singleton_append]
  simp [resolvConfWords, hline, hfirst]

/-- A text without newlines and the newline behind it are one line. -/
lemma readLines_singleton {text : String} (h : '\n' ∉ text.toList) :
    readLines (text ++ "\n") = [text] := by
  have hline : readLines (text ++ "\n" ++ "") = text :: readLines "" := readLines_append_iff.mpr h
  rw [String.append_empty] at hline
  exact hline

/-- The line with the search domains, if there are any. -/
def searchLines (searches : List String) : List String :=
  if searches = [] then [] else ["search " ++ " ".intercalate searches]

/-- The lines of the configured options, which are written as they are. -/
def optionLines (config : Config) : List String :=
  match config.resolverOptions with
  | some options => readLines ("options " ++ options ++ "\n")
  | none => []

/-- The line of the listen address. -/
def nameserverLine (p : Platform) (config : Config) : String :=
  "nameserver " ++ (ipToStr p.inet config.listenAddress).getD ""

/-- The address is printed without a newline. -/
lemma newline_not_mem_nameserverLine {p : Platform} (hnet : p.inet.PrintsWords) (config : Config) :
    '\n' ∉ (nameserverLine p config).toList := by
  have haddress : '\n' ∉ ((ipToStr p.inet config.listenAddress).getD "").toList := by
    cases config.listenAddress with
    | unspec => simp [ipToStr]
    | inet a port => exact (hnet.ntop4 a).2.1
    | inet6 a port => exact (hnet.ntop6 a).2.1
  rw [nameserverLine, String.toList_append, List.mem_append, not_or]
  exact ⟨by decide, haddress⟩

/-- The part of resolv.conf that depends on the configuration only, line by line. -/
lemma readLines_resolvConfOptions {p : Platform} (hnet : p.inet.PrintsWords) (config : Config) :
    readLines (resolvConfOptions p config) =
      optionLines config ++ [nameserverLine p config] := by
  have hlast := readLines_singleton (newline_not_mem_nameserverLine hnet config)
  unfold resolvConfOptions optionLines
  cases config.resolverOptions with
  | none =>
    rw [← hlast, nameserverLine]
    simp
  | some options =>
    have htext : "options " ++ options ++ "\n" ++ "nameserver " ++
        (ipToStr p.inet config.listenAddress).getD "" ++ "\n" =
        "options " ++ options ++ "\n" ++ (nameserverLine p config ++ "\n") := by
      simp only [nameserverLine, String.append_assoc]
    dsimp only
    rw [htext, readLines_append, hlast]

/-! ## The file as a whole -/

/-- The search domains that are written are those of the servers used for some domain. -/
lemma mem_searchesOf_iff_lookup {order : Enumeration ServerEntry} {table : ServerTable}
    {mode : Mode} {search : String} :
    search ∈ searchesOf order table mode ↔ ∃ domain servers, table.lookup domain = some servers ∧
      ∃ s ∈ getUsedServers servers mode domain, search ∈ s.searchDomains := by
  rw [mem_searchesOf]
  constructor
  · rintro ⟨⟨domain, servers⟩, hentry, s, hs, hsearch⟩
    exact ⟨domain, servers, AList.mem_lookup_iff.mpr hentry, s, hs, hsearch⟩
  · rintro ⟨domain, servers, hlookup, s, hs, hsearch⟩
    exact ⟨⟨domain, servers⟩, AList.mem_lookup_iff.mp hlookup, s, hs, hsearch⟩

/-- The search line consists of the keyword and the search domains. -/
lemma resolvConfWords_searchLines {searches : List String} (h : ∀ w ∈ searches, IsSearchWord w)
    {line : String} (hline : line ∈ searchLines searches) :
    resolvConfWords line = "search" :: searches := by
  unfold searchLines at hline
  split_ifs at hline with hnil
  · cases hline
  · rw [List.mem_singleton.mp hline]
    have hjoined : "search " ++ " ".intercalate searches =
        " ".intercalate ("search" :: searches) := by
      rw [String.intercalate_cons_of_ne_nil hnil]
      rfl
    rw [hjoined]
    refine resolvConfWords_intercalate fun w hw => ?_
    rcases List.mem_cons.mp hw with rfl | hw
    · decide
    · exact h w hw

/-- Lines that begin with other keywords do not count. -/
lemma filter_keyword_eq_nil {keyword : String} {ls : List String}
    (h : ∀ line ∈ ls, (resolvConfWords line).head? ≠ some keyword) :
    ls.filter (fun line => (resolvConfWords line).head? = some keyword) = [] := by
  rw [List.filter_eq_nil_iff]
  intro line hline
  simpa using h line hline

/-- The configured options, if they are one line, begin with `options`. -/
lemma head_optionLines {config : Config}
    (h : ∀ options ∈ config.resolverOptions, '\n' ∉ options.toList) {line : String}
    (hline : line ∈ optionLines config) : (resolvConfWords line).head? = some "options" := by
  unfold optionLines at hline
  split at hline
  · rename_i options hoptions
    have hclean : '\n' ∉ ("options " ++ options).toList := by
      rw [String.toList_append, List.mem_append, not_or]
      exact ⟨by decide, h options hoptions⟩
    rw [readLines_singleton hclean, List.mem_singleton] at hline
    have hkeyword : IsSearchWord "options" := by decide
    rw [hline]
    exact head_resolvConfWords hkeyword options
  · cases hline

/-- The lines of the file by their keywords. -/
lemma linesWith_eq {p : Platform} {config : Config} {searches : List String} {text : String}
    (hlines : readLines text = ["#Generated by dnsconfd"] ++ searchLines searches ++
      optionLines config ++ [nameserverLine p config])
    (hsearch : ∀ line ∈ searchLines searches, resolvConfWords line = "search" :: searches)
    (honeLine : ∀ options ∈ config.resolverOptions, '\n' ∉ options.toList) :
    linesWith "search" text = searchLines searches ∧
      linesWith "nameserver" text = [nameserverLine p config] := by
  have hheader : (resolvConfWords "#Generated by dnsconfd").head? = some "#Generated" := by decide
  have hkeyword : IsSearchWord "nameserver" := by decide
  have hnameserver : (resolvConfWords (nameserverLine p config)).head? = some "nameserver" :=
    head_resolvConfWords hkeyword _
  have hsearchHead : ∀ line ∈ searchLines searches,
      (resolvConfWords line).head? = some "search" := by
    intro line hline
    rw [hsearch line hline, List.head?_cons]
  have hother : ∀ keyword : String, keyword ≠ "options" →
      (optionLines config).filter (fun line => (resolvConfWords line).head? = some keyword) = [] := by
    intro keyword hkeyword
    refine filter_keyword_eq_nil fun line hline hhead => hkeyword ?_
    rw [head_optionLines honeLine hline] at hhead
    exact (Option.some.inj hhead).symm
  have hkept : (searchLines searches).filter
      (fun line => (resolvConfWords line).head? = some "search") = searchLines searches :=
    List.filter_eq_self.mpr fun line hline => by simpa using hsearchHead line hline
  have hdropped : (searchLines searches).filter
      (fun line => (resolvConfWords line).head? = some "nameserver") = [] :=
    filter_keyword_eq_nil fun line hline => by rw [hsearchHead line hline]; decide
  unfold linesWith
  rw [hlines]
  simp only [List.filter_append]
  constructor
  · rw [hother "search" (by decide), hkept]
    simp [hheader, hnameserver]
  · rw [hother "nameserver" (by decide), hdropped]
    simp [hheader, hnameserver]

/-- Search domains are complete and unique.  The file that `write_resolv_conf` writes has the header,
one search line unless there is nothing to search, the configured options as they are and the line of
the listen address.  The words behind `search` are the search domains of the servers used for some
domain, each once and in the order of their first occurrence.  If the configured options are one line,
no other line begins with `search` or `nameserver`. -/
theorem search_domains_complete (p : Platform) (hnet : p.inet.PrintsWords) (config : Config)
    (o : ResolvConfOutcome) (ctx : Context) {table : ServerTable} {text : String}
    (htable : ctx.currentDomainToServers = some table)
    (htext : .resolvConfWritten text ∈ (writeResolvConf p config o ctx).effects)
    (hwords : ∀ domain servers, table.lookup domain = some servers →
      ∀ s ∈ getUsedServers servers ctx.resolutionMode domain, ∀ w ∈ s.searchDomains,
        IsSearchWord w) :
    ∃ searches, searches = (metSearches o.order table ctx.resolutionMode).eraseDups ∧
      searches.Nodup ∧
      (∀ w, w ∈ searches ↔ ∃ domain servers, table.lookup domain = some servers ∧
        ∃ s ∈ getUsedServers servers ctx.resolutionMode domain, w ∈ s.searchDomains) ∧
      text = "#Generated by dnsconfd\n" ++ (printSearches o.order table ctx.resolutionMode).text ++
        resolvConfOptions p config ∧
      readLines text = ["#Generated by dnsconfd"] ++ searchLines searches ++ optionLines config ++
        [nameserverLine p config] ∧
      (∀ line ∈ searchLines searches, resolvConfWords line = "search" :: searches) ∧
      ((∀ options ∈ config.resolverOptions, '\n' ∉ options.toList) →
        linesWith "search" text = searchLines searches ∧
        linesWith "nameserver" text = [nameserverLine p config]) := by
  have hsearches : ∀ w ∈ searchesOf o.order table ctx.resolutionMode, IsSearchWord w := by
    intro w hw
    obtain ⟨domain, servers, hlookup, s, hs, hsearch⟩ := mem_searchesOf_iff_lookup.mp hw
    exact hwords domain servers hlookup s hs w hsearch
  obtain rfl := eq_resolvConfText_of_mem htable htext
  have hlines : readLines (resolvConfText p config o.order table ctx.resolutionMode) =
      ["#Generated by dnsconfd"] ++ searchLines (searchesOf o.order table ctx.resolutionMode) ++
        optionLines config ++ [nameserverLine p config] := by
    have hsafe : SearchTextsSafe ctx.resolutionMode table := by
      intro entry hentry s hs w hw hnewline
      have hword := hwords entry.1 entry.2 (AList.mem_lookup_iff.mpr hentry) s hs w hw
      exact absurd (hword.2 _ hnewline) (by decide)
    rw [(readLines_resolvConfText_iff p config _ _ _).mpr hsafe, wantedResolvConf,
      readLines_resolvConfOptions hnet]
    simp only [searchLines, List.cons_append, List.nil_append, List.append_assoc]
  refine ⟨searchesOf o.order table ctx.resolutionMode, searchesOf_eq _ _ _, ?_,
    fun w => mem_searchesOf_iff_lookup, ?_, hlines,
    fun line hline => resolvConfWords_searchLines hsearches hline, fun honeLine => ?_⟩
  · rw [searchesOf_eq]
    exact nodup_eraseDups _
  · rw [searchText_printSearches, resolvConfText_eq]
    simp only [String.append_assoc]
    rfl
  · exact linesWith_eq hlines (fun line hline => resolvConfWords_searchLines hsearches hline) honeLine

/-- A platform that prints every address as a loopback address. -/
def Platform.printsLoopback : Platform :=
  { Platform.plain with
    inet := { Platform.plain.inet with ntop4 := fun _ => "127.0.0.1", ntop6 := fun _ => "::1" } }

/-- A server whose search domains repeat. -/
def repeatingServer : ServerUri :=
  { ServerUri.initial with searchDomains := ["b.example", "a.example", "b.example"] }

/-- A context with this server for the root domain. -/
def searching : Context :=
  { Context.initial with
    currentDomainToServers := some (AList.singleton "." [repeatingServer]) }

/-- Each search domain is written once, in the order of its first occurrence. -/
theorem search_domains_complete_repeated :
    linesWith "search" "#Generated by dnsconfd\nsearch b.example a.example\nnameserver 127.0.0.1\n" =
      ["search b.example a.example"] := by
  have hnet : Platform.printsLoopback.inet.PrintsWords :=
    ⟨fun _ => show "127.0.0.1" ≠ "" ∧ IsWord "127.0.0.1" by decide,
      fun _ => show "::1" ≠ "" ∧ IsWord "::1" by decide⟩
  have hwritten : .resolvConfWritten
      "#Generated by dnsconfd\nsearch b.example a.example\nnameserver 127.0.0.1\n" ∈
      (writeResolvConf .printsLoopback .plain Outcomes.allOk.resolvConf searching).effects := by
    decide
  have hwords : ∀ entry ∈ [(⟨".", [repeatingServer]⟩ : ServerEntry)],
      ∀ s ∈ getUsedServers entry.2 .backup entry.1, ∀ w ∈ s.searchDomains, IsSearchWord w := by
    decide
  obtain ⟨searches, rfl, -, -, -, -, -, hlines⟩ := search_domains_complete .printsLoopback hnet
    .plain Outcomes.allOk.resolvConf searching rfl hwritten
    fun domain servers hlookup => hwords ⟨domain, servers⟩ (AList.mem_lookup_iff.mp hlookup)
  exact (hlines (by decide)).1

end Dnsconfd
