import EpollGateway.Lib.Bytes
import Mathlib.Data.List.Infix

/-! # Below the document root

`is_safe_static_path` joins the path of a request to the document root, resolves the
symbolic links of the result and accepts it when its text begins with the text of the
resolved root. No name with `..` comes so far, so only a link can lead out of the root.
A link to a directory beside the root is accepted when the name of that directory
begins with the name of the root (`sibling_served`). Without such a link every path
that is accepted lies below the root, name by name (`contained_iff`).
-/

namespace EpollGateway.Static

open Bytes

/-! ## Paths -/

/-- The names of a path: what stands between its slashes, without the empty ones. -/
def pathNames (path : Bytes) : List Bytes := (path.splitOn 47).filter (· ≠ [])

/-- The text of an absolute path. -/
def pathText (names : List Bytes) : Bytes :=
  if names = [] then [47] else names.flatMap (47 :: ·)

def dot : Bytes := ascii "."

def dotDot : Bytes := ascii ".."

/-- The directory that a name leads to, when there is no link. -/
def enter (dir : List Bytes) (name : Bytes) : List Bytes :=
  if name = dot then dir else if name = dotDot then dir.dropLast else dir ++ [name]

/-- `lexically_normal`, for a path that does not lead above the place where it begins. -/
def lexicallyNormal (names : List Bytes) : List Bytes := names.foldl enter []

/-- A name as it stands in a normal path. -/
structure IsName (name : Bytes) : Prop where
  ne_nil : name ≠ []
  slash : 47 ∉ name
  ne_dot : name ≠ dot
  ne_dotDot : name ≠ dotDot

/-! ## Links -/

/-- A file or a directory, or a symbolic link. -/
inductive Entry where
  | plain
  | link (target : Bytes)

/-- What stands at each path, before its last name is followed. The system gives up
after `maxSteps` names. -/
structure Volume where
  entry : List Bytes → Option Entry
  cwd : List Bytes
  maxSteps : Nat
  cwd_names : ∀ n ∈ cwd, IsName n

inductive Resolution where
  | found (path : List Bytes)
  | missing
  | failed

namespace Volume

/-- Following names from a directory, through links. -/
def resolve (v : Volume) : Nat → List Bytes → List Bytes → Resolution
  | 0, _, _ => .failed
  | _ + 1, dir, [] => .found dir
  | fuel + 1, dir, name :: rest =>
    if name = dot ∨ name = dotDot then v.resolve fuel (enter dir name) rest
    else
      match v.entry (dir ++ [name]) with
      | none => .missing
      | some .plain => v.resolve fuel (dir ++ [name]) rest
      | some (.link target) =>
        v.resolve fuel (if target.head? = some 47 then [] else dir) (pathNames target ++ rest)

/-- The part of a path that exists is resolved; the rest is put behind it and made
normal. -/
def canonicalFrom (v : Volume) : List Bytes → List Bytes → Option (List Bytes)
  | dir, [] => some dir
  | dir, name :: rest =>
    match v.resolve v.maxSteps dir [name] with
    | .found next => v.canonicalFrom next rest
    | .missing => some ((name :: rest).foldl enter dir)
    | .failed => none

/-- `std::filesystem::weakly_canonical`. -/
def weaklyCanonical (v : Volume) (path : Bytes) : Option (List Bytes) :=
  v.canonicalFrom (if path.head? = some 47 then [] else v.cwd) (pathNames path)

end Volume

/-! ## The check -/

/-- The path of the file below the root, without the mount path and leading slashes. -/
def staticSuffix (mountPath requestPath : Bytes) : Bytes :=
  let suffix :=
    if mountPath ≠ [] ∧ mountPath <+: requestPath then requestPath.drop mountPath.length
    else requestPath
  let suffix := if suffix = [] then ascii "/" else suffix
  let suffix := if suffix = ascii "/" then ascii "/index.html" else suffix
  suffix.dropWhile (· = 47)

/-- `is_safe_static_path`, with `resolved_path` when it is true. Paths are lists of names: a
slash at the end, which the source keeps for a path that does not exist, is dropped. -/
def isSafeStaticPath (v : Volume) (mountPath requestPath rootDir : Bytes) : Option Bytes :=
  (v.weaklyCanonical rootDir).bind fun root =>
    let suffix := staticSuffix mountPath requestPath
    if dotDot <:+: suffix then none
    else
      let candidate := root ++ lexicallyNormal (pathNames suffix)
      (v.weaklyCanonical (pathText root)).bind fun canonicalRoot =>
        (v.weaklyCanonical (pathText candidate)).bind fun canonicalCandidate =>
          if pathText canonicalRoot <+: pathText canonicalCandidate then
            some (pathText canonicalCandidate)
          else none

/-! ## Containment -/

/-- The document root, and the root with which candidates are compared. -/
structure Volume.Rooted (v : Volume) (rootDir : Bytes) (root canonicalRoot : List Bytes) :
    Prop where
  resolved : v.weaklyCanonical rootDir = some root
  again : v.weaklyCanonical (pathText root) = some canonicalRoot

/-- A text is the path of the root, or of something below it. -/
def Below (root : List Bytes) (text : Bytes) : Prop :=
  ∃ rest, (∀ n ∈ rest, IsName n) ∧ text = pathText (root ++ rest)

/-- A path leads to, or into, a neighbour of the root whose name begins with the name
of the root. -/
def Beside (root path : List Bytes) : Prop :=
  ∃ parent name more rest, root = parent ++ [name] ∧ path = parent ++ (name ++ more) :: rest ∧
    more ≠ []

/-- A name that is let through. -/
structure Admitted (name : Bytes) : Prop extends IsName name where
  clean : ¬ dotDot <:+: name

/-- Names below the root lead into such a neighbour. -/
def Volume.LeadsBeside (v : Volume) (root canonicalRoot : List Bytes) : Prop :=
  ∃ names path, (∀ n ∈ names, Admitted n) ∧
    v.weaklyCanonical (pathText (root ++ names)) = some path ∧ Beside canonicalRoot path

/-! ## Names -/

lemma pathNames_nil : pathNames [] = [] := by
  simp [pathNames]

lemma pathNames_append_cons (a b : Bytes) :
    pathNames (a ++ 47 :: b) = pathNames a ++ pathNames b := by
  unfold pathNames List.splitOn
  rw [List.splitOnP_append_cons a b (by decide), List.filter_append]

lemma pathNames_slash (p : Bytes) : pathNames (47 :: p) = pathNames p := by
  have h := pathNames_append_cons [] p
  rwa [List.nil_append, pathNames_nil, List.nil_append] at h

variable {n p rootDir : Bytes} {dir names path root : List Bytes}

lemma pathNames_name (hne : n ≠ []) (hslash : 47 ∉ n) : pathNames n = [n] := by
  have hno : ∀ c ∈ n, (c == 47) = false := by
    intro c hc
    rw [beq_eq_false_iff_ne]
    rintro rfl
    exact hslash hc
  unfold pathNames List.splitOn
  rw [List.splitOnP_eq_singleton hno, List.filter_cons_of_pos (by simpa using hne), List.filter_nil]

/-- Names are not empty and have no slash. -/
lemma mem_pathNames (h : n ∈ pathNames p) : n ≠ [] ∧ 47 ∉ n := by
  induction hlen : p.length using Nat.strongRecOn generalizing p with
  | ind k ih =>
    rcases split_first 47 p with hslash | ⟨m, rest, rfl, hslash⟩
    · by_cases hnil : p = []
      · rw [hnil, pathNames_nil] at h
        cases h
      · rw [pathNames_name hnil hslash, List.mem_singleton] at h
        rw [h]
        exact ⟨hnil, hslash⟩
    · rw [pathNames_append_cons, List.mem_append] at h
      rw [List.length_append, List.length_cons] at hlen
      rcases h with h | h
      · exact ih m.length (by omega) h rfl
      · exact ih rest.length (by omega) h rfl

lemma mem_enter {name : Bytes} (h : n ∈ enter dir name) :
    n ∈ dir ∨ n = name ∧ name ≠ dot ∧ name ≠ dotDot := by
  unfold enter at h
  split at h
  · exact .inl h
  · rename_i hdot
    split at h
    · exact .inl (List.dropLast_subset dir h)
    · rename_i hdots
      rcases List.mem_append.mp h with h | h
      · exact .inl h
      · exact .inr ⟨List.mem_singleton.mp h, hdot, hdots⟩

/-- Names that are entered one after the other. -/
lemma mem_foldl_enter (h : n ∈ names.foldl enter dir) :
    n ∈ dir ∨ n ∈ names ∧ n ≠ dot ∧ n ≠ dotDot := by
  induction names generalizing dir with
  | nil => exact .inl h
  | cons m ms ih =>
    rcases ih h with h | ⟨h, hdots⟩
    · rcases mem_enter h with h | ⟨rfl, hdots⟩
      · exact .inl h
      · exact .inr ⟨List.mem_cons_self, hdots⟩
    · exact .inr ⟨List.mem_cons_of_mem _ h, hdots⟩

/-! ## Resolved paths -/

namespace Volume

variable {v : Volume}

lemma resolve_names {fuel : Nat} {dir rest path : List Bytes} (hdir : ∀ n ∈ dir, IsName n)
    (hrest : ∀ n ∈ rest, n ≠ [] ∧ 47 ∉ n) (h : v.resolve fuel dir rest = .found path) :
    ∀ n ∈ path, IsName n := by
  induction fuel generalizing dir rest with
  | zero => cases h
  | succ fuel ih =>
    rcases rest with _ | ⟨name, rest⟩
    · cases h
      exact hdir
    · have hname := hrest name List.mem_cons_self
      have htail := fun n hn => hrest n (List.mem_cons_of_mem _ hn)
      rw [resolve] at h
      split at h
      · refine ih ?_ htail h
        intro n hn
        rcases mem_enter hn with hn | ⟨rfl, hdot, hdots⟩
        · exact hdir n hn
        · exact ⟨hname.1, hname.2, hdot, hdots⟩
      · rename_i hdots
        rw [not_or] at hdots
        rcases hentry : v.entry (dir ++ [name]) with _ | ⟨_ | target⟩
        · simp only [hentry] at h
          cases h
        · simp only [hentry] at h
          refine ih ?_ htail h
          intro n hn
          rcases List.mem_append.mp hn with hn | hn
          · exact hdir n hn
          · rw [List.mem_singleton.mp hn]
            exact ⟨hname.1, hname.2, hdots.1, hdots.2⟩
        · simp only [hentry] at h
          refine ih ?_ ?_ h
          · intro n hn
            split at hn
            · cases hn
            · exact hdir n hn
          · intro n hn
            rcases List.mem_append.mp hn with hn | hn
            · exact mem_pathNames hn
            · exact htail n hn

lemma canonicalFrom_names {dir rest path : List Bytes} (hdir : ∀ n ∈ dir, IsName n)
    (hrest : ∀ n ∈ rest, n ≠ [] ∧ 47 ∉ n) (h : v.canonicalFrom dir rest = some path) :
    ∀ n ∈ path, IsName n := by
  induction rest generalizing dir with
  | nil =>
    cases h
    exact hdir
  | cons name rest ih =>
    have hname := hrest name List.mem_cons_self
    rw [canonicalFrom] at h
    rcases hres : v.resolve v.maxSteps dir [name] with next | _ | _
    · simp only [hres] at h
      refine ih ?_ (fun n hn => hrest n (List.mem_cons_of_mem _ hn)) h
      refine resolve_names hdir ?_ hres
      intro n hn
      rw [List.mem_singleton.mp hn]
      exact hname
    · simp only [hres, Option.some.injEq] at h
      subst h
      intro n hn
      rcases mem_foldl_enter hn with hn | ⟨hn, hdot, hdots⟩
      · exact hdir n hn
      · exact ⟨(hrest n hn).1, (hrest n hn).2, hdot, hdots⟩
    · simp only [hres] at h
      cases h

/-- A resolved path is normal. -/
lemma weaklyCanonical_names {path : Bytes} {names : List Bytes}
    (h : v.weaklyCanonical path = some names) : ∀ n ∈ names, IsName n := by
  refine canonicalFrom_names ?_ (fun n hn => mem_pathNames hn) h
  intro n hn
  split at hn
  · cases hn
  · exact v.cwd_names n hn

end Volume

/-! ## Texts -/

lemma ne_slash (hn : 47 ∉ n) : ∀ c ∈ n, decide (c ≠ 47) = true := by
  intro c hc
  rw [decide_eq_true_eq]
  rintro rfl
  exact hn hc

lemma takeWhile_slash (hn : 47 ∉ n) (rest : Bytes) :
    (n ++ 47 :: rest).takeWhile (· ≠ 47) = n := by
  rw [List.takeWhile_append_of_pos (ne_slash hn), List.takeWhile_cons_of_neg (by decide),
    List.append_nil]

lemma dropWhile_slash (hn : 47 ∉ n) (rest : Bytes) :
    (n ++ 47 :: rest).dropWhile (· ≠ 47) = 47 :: rest := by
  rw [List.dropWhile_append_of_pos (ne_slash hn), List.dropWhile_cons_of_neg (by decide)]

/-- A name in front of a slash is found again. -/
lemma name_eq_of_append {m s t : Bytes} (hn : 47 ∉ n) (hm : 47 ∉ m)
    (h : n ++ 47 :: s = m ++ 47 :: t) : n = m ∧ s = t := by
  have htake := congrArg (List.takeWhile (· ≠ 47)) h
  rw [takeWhile_slash hn, takeWhile_slash hm] at htake
  subst htake
  exact ⟨rfl, by simpa using h⟩

lemma Beside.cons (n : Bytes) (h : Beside root path) : Beside (n :: root) (n :: path) := by
  rcases h with ⟨parent, name, more, rest, rfl, rfl, hmore⟩
  exact ⟨n :: parent, name, more, rest, rfl, rfl, hmore⟩

/-- The text of a path begins with the text of the root: the names of the root come
first, or the last of them is continued. -/
lemma root_or_beside (hroot : ∀ n ∈ root, IsName n) (hpath : ∀ n ∈ path, IsName n)
    (hne : root ≠ []) (h : root.flatMap (47 :: ·) <+: path.flatMap (47 :: ·)) :
    root <+: path ∨ Beside root path := by
  induction root generalizing path with
  | nil => exact absurd rfl hne
  | cons n ns ih =>
    rcases path with _ | ⟨m, ms⟩
    · simp at h
    · have hn := (hroot n List.mem_cons_self).slash
      have hm := (hpath m List.mem_cons_self).slash
      rw [List.flatMap_cons, List.flatMap_cons, List.cons_append, List.cons_append,
        List.cons_prefix_cons] at h
      rcases h with ⟨-, t, ht⟩
      rcases ns with _ | ⟨k, ks⟩
      · -- the last name of the root
        rw [List.flatMap_nil, List.append_nil] at ht
        rcases List.append_eq_append_iff.mp ht with ⟨more, rfl, -⟩ | ⟨more, rfl, hms⟩
        · by_cases hmore : more = []
          · left
            rw [hmore, List.append_nil]
            exact ⟨ms, rfl⟩
          · exact .inr ⟨[], n, more, ms, rfl, rfl, hmore⟩
        · rcases more with _ | ⟨c, cs⟩
          · left
            rw [List.append_nil]
            exact ⟨ms, rfl⟩
          · rcases ms with _ | ⟨m', ms⟩
            · simp at hms
            · rw [List.flatMap_cons, List.cons_append, List.cons_append, List.cons.injEq] at hms
              rw [← hms.1] at hn
              exact absurd (by simp) hn
      · -- a name with a slash behind it
        rcases ms with _ | ⟨m', ms⟩
        · rw [List.flatMap_nil, List.append_nil, List.flatMap_cons] at ht
          rw [← ht] at hm
          exact absurd (by simp) hm
        · rw [List.append_assoc] at ht
          have hsplit : n ++ 47 :: (k ++ (ks.flatMap (47 :: ·) ++ t)) =
              m ++ 47 :: (m' ++ ms.flatMap (47 :: ·)) := by
            simpa using ht
          rcases name_eq_of_append hn hm hsplit with ⟨rfl, htail⟩
          have hns : (k :: ks).flatMap (47 :: ·) <+: (m' :: ms).flatMap (47 :: ·) := by
            refine ⟨t, ?_⟩
            simpa using htail
          rcases ih (fun x hx => hroot x (List.mem_cons_of_mem _ hx))
            (fun x hx => hpath x (List.mem_cons_of_mem _ hx)) (by simp) hns with hin | hbeside
          · left
            exact List.cons_prefix_cons.mpr ⟨rfl, hin⟩
          · exact .inr (hbeside.cons n)

/-- Below the root or beside it. -/
lemma below_or_beside (hroot : ∀ n ∈ root, IsName n) (hpath : ∀ n ∈ path, IsName n)
    (h : pathText root <+: pathText path) : Below root (pathText path) ∨ Beside root path := by
  by_cases hne : root = []
  · left
    exact ⟨path, hpath, by rw [hne, List.nil_append]⟩
  · have hnames : root <+: path ∨ Beside root path := by
      rcases path with _ | ⟨m, ms⟩
      · -- the path `/` is one byte, and the text of the root is longer
        rcases List.exists_cons_of_ne_nil hne with ⟨n, ns, rfl⟩
        have hn := List.length_pos_iff.mpr (hroot n List.mem_cons_self).ne_nil
        have hlong : 2 ≤ (pathText (n :: ns)).length := by
          simp [pathText]
          omega
        have hshort : (pathText []).length = 1 := rfl
        have hlen := h.length_le
        omega
      · unfold pathText at h
        rw [if_neg hne, if_neg (by simp)] at h
        exact root_or_beside hroot hpath hne h
    rcases hnames with ⟨rest, rfl⟩ | hbeside
    · left
      exact ⟨rest, fun n hn => hpath n (List.mem_append_right _ hn), rfl⟩
    · exact .inr hbeside

/-- The text of a neighbour begins with the text of the root, but is not below it. -/
lemma Beside.text (hpath : ∀ n ∈ path, IsName n) (h : Beside root path) :
    pathText root <+: pathText path ∧ ¬ Below root (pathText path) := by
  rcases h with ⟨parent, name, more, rest, rfl, rfl, hmore⟩
  have htext (l : List Bytes) (hl : l ≠ []) : pathText l = l.flatMap (47 :: ·) := if_neg hl
  rcases List.exists_cons_of_ne_nil hmore with ⟨c, cs, rfl⟩
  rw [htext (parent ++ [name]) (by simp), htext (parent ++ _ :: rest) (by simp)]
  constructor
  · refine ⟨c :: (cs ++ rest.flatMap (47 :: ·)), ?_⟩
    simp
  · rintro ⟨below, -, heq⟩
    rw [htext _ (by simp)] at heq
    -- behind the name of the root stands a byte that is no slash
    have htail : c :: (cs ++ rest.flatMap (47 :: ·)) = below.flatMap (47 :: ·) := by
      simpa using heq
    rcases below with _ | ⟨b, bs⟩
    · simp at htail
    · rw [List.flatMap_cons, List.cons_append, List.cons.injEq] at htail
      have hslash := (hpath (name ++ c :: cs) (by simp)).slash
      exact hslash (by simp [htail.1])

/-! ## The names of a request -/

/-- Two dots stand on one side of a slash. -/
lemma dotDot_infix_append {a b : Bytes} (h : dotDot <:+: a ++ 47 :: b) :
    dotDot <:+: a ∨ dotDot <:+: b := by
  have hdots : dotDot = [46, 46] := by decide
  rw [hdots] at h ⊢
  induction a with
  | nil =>
    rcases List.infix_cons_iff.mp h with h | h
    · rw [List.cons_prefix_cons] at h
      exact absurd h.1 (by decide)
    · exact .inr h
  | cons x xs ih =>
    rcases List.infix_cons_iff.mp h with hfirst | htail
    · left
      rcases List.cons_prefix_cons.mp hfirst with ⟨rfl, hnext⟩
      rcases xs with _ | ⟨y, ys⟩
      · exact absurd (List.cons_prefix_cons.mp hnext).1 (by decide)
      · rcases List.cons_prefix_cons.mp hnext with ⟨rfl, -⟩
        exact ⟨[], ys, rfl⟩
    · rcases ih htail with h | h
      · exact .inl (List.infix_cons h)
      · exact .inr h

lemma infix_of_mem_pathNames (h : n ∈ pathNames p) : n <:+: p := by
  induction hlen : p.length using Nat.strongRecOn generalizing p with
  | ind k ih =>
    rcases split_first 47 p with hslash | ⟨m, rest, rfl, hslash⟩
    · by_cases hnil : p = []
      · rw [hnil, pathNames_nil] at h
        cases h
      · rw [pathNames_name hnil hslash, List.mem_singleton] at h
        subst h
        exact List.infix_refl n
    · rw [pathNames_append_cons, List.mem_append] at h
      rw [List.length_append, List.length_cons] at hlen
      rcases h with h | h
      · exact (ih m.length (by omega) h rfl).trans (List.prefix_append _ _).isInfix
      · exact (ih rest.length (by omega) h rfl).trans ⟨m ++ [47], [], by simp⟩

/-- The names of a path without two dots. -/
lemma admitted_of_mem (h : n ∈ pathNames p) (hp : ¬ dotDot <:+: p) (hdot : n ≠ dot) :
    Admitted n := by
  rcases mem_pathNames h with ⟨hne, hslash⟩
  have hin := infix_of_mem_pathNames h
  refine ⟨⟨hne, hslash, hdot, ?_⟩, fun hdots => hp (hdots.trans hin)⟩
  rintro rfl
  exact hp hin

/-- The names that a request adds to the root are let through. -/
lemma admitted_suffix {suffix : Bytes} (hp : ¬ dotDot <:+: suffix)
    (h : n ∈ lexicallyNormal (pathNames suffix)) : Admitted n := by
  rcases mem_foldl_enter h with h | ⟨h, hdot, -⟩
  · cases h
  · exact admitted_of_mem h hp hdot

/-- A path of names. -/
def relative : List Bytes → Bytes
  | [] => []
  | [n] => n
  | n :: ns => n ++ 47 :: relative ns

lemma pathNames_relative (h : ∀ n ∈ names, IsName n) : pathNames (relative names) = names := by
  induction names with
  | nil => exact pathNames_nil
  | cons n ns ih =>
    have hn := h n List.mem_cons_self
    rcases ns with _ | ⟨m, ms⟩
    · exact pathNames_name hn.ne_nil hn.slash
    · have htail := ih fun x hx => h x (List.mem_cons_of_mem _ hx)
      rw [relative, pathNames_append_cons, pathNames_name hn.ne_nil hn.slash, htail]
      · rfl
      · simp

lemma flatMap_slash (hne : names ≠ []) : names.flatMap (47 :: ·) = 47 :: relative names := by
  induction names with
  | nil => exact absurd rfl hne
  | cons n ns ih =>
    rcases ns with _ | ⟨m, ms⟩
    · simp [relative]
    · rw [List.flatMap_cons, ih (by simp)]
      rfl

lemma pathNames_pathText (h : ∀ n ∈ names, IsName n) : pathNames (pathText names) = names := by
  unfold pathText
  split
  · rename_i hnil
    rw [hnil]
    decide
  · rename_i hne
    rw [flatMap_slash hne, pathNames_slash, pathNames_relative h]

lemma dotDot_relative (h : ∀ n ∈ names, Admitted n) : ¬ dotDot <:+: relative names := by
  induction names with
  | nil => decide
  | cons n ns ih =>
    have hn := h n List.mem_cons_self
    rcases ns with _ | ⟨m, ms⟩
    · exact hn.clean
    · intro hin
      rw [relative] at hin
      · rcases dotDot_infix_append hin with hin | hin
        · exact hn.clean hin
        · exact ih (fun x hx => h x (List.mem_cons_of_mem _ hx)) hin
      · simp

lemma foldl_enter_names (h : ∀ n ∈ names, IsName n) : names.foldl enter dir = dir ++ names := by
  induction names generalizing dir with
  | nil => simp
  | cons n ns ih =>
    have hn := h n List.mem_cons_self
    rw [List.foldl_cons, ih fun x hx => h x (List.mem_cons_of_mem _ hx), enter, if_neg hn.ne_dot,
      if_neg hn.ne_dotDot, List.append_assoc, List.singleton_append]

/-- Every path of names that are let through is the path of some request. -/
lemma staticSuffix_relative (h : ∀ n ∈ names, IsName n) (hne : names ≠ []) :
    staticSuffix [] (47 :: relative names) = relative names := by
  rcases List.exists_cons_of_ne_nil hne with ⟨n, ns, rfl⟩
  have hn := h n List.mem_cons_self
  rcases List.exists_cons_of_ne_nil hn.ne_nil with ⟨c, cs, rfl⟩
  have hrel : ∃ rest, relative ((c :: cs) :: ns) = c :: rest := by
    rcases ns with _ | ⟨m, ms⟩
    · exact ⟨cs, rfl⟩
    · exact ⟨cs ++ 47 :: relative (m :: ms), rfl⟩
  rcases hrel with ⟨rest, hrel⟩
  have hc : c ≠ 47 := fun heq => hn.slash (by simp [heq])
  have hslash : (47 :: relative ((c :: cs) :: ns) : Bytes) ≠ ascii "/" := by
    rw [hrel]
    simp [ascii]
  unfold staticSuffix
  simp only [ne_eq, not_true_eq_false, false_and, if_false, reduceCtorEq, if_neg hslash]
  rw [hrel]
  simp [hc]

/-! ## Every request -/

variable {v : Volume}

/-- What is accepted is the resolved path of admitted names below the root. -/
lemma isSafeStaticPath_eq_some {mountPath requestPath resolved : Bytes}
    (h : isSafeStaticPath v mountPath requestPath rootDir = some resolved) :
    ∃ root canonicalRoot names path, v.Rooted rootDir root canonicalRoot ∧
      (∀ n ∈ names, Admitted n) ∧ v.weaklyCanonical (pathText (root ++ names)) = some path ∧
      pathText canonicalRoot <+: pathText path ∧ resolved = pathText path := by
  unfold isSafeStaticPath at h
  rcases Option.bind_eq_some_iff.mp h with ⟨root, hroot, h⟩
  dsimp only at h
  split at h
  · cases h
  · rename_i hdots
    rcases Option.bind_eq_some_iff.mp h with ⟨canonicalRoot, hcanonical, h⟩
    rcases Option.bind_eq_some_iff.mp h with ⟨path, hpath, h⟩
    split at h
    · rename_i hbegins
      cases h
      exact ⟨root, canonicalRoot, _, path, ⟨hroot, hcanonical⟩,
        fun n hn => admitted_suffix hdots hn, hpath, hbegins, rfl⟩
    · cases h

/-- And each such path is accepted for some request. -/
lemma isSafeStaticPath_relative {canonicalRoot : List Bytes}
    (hroot : v.Rooted rootDir root canonicalRoot) (hnames : ∀ n ∈ names, Admitted n)
    (hne : names ≠ []) (hpath : v.weaklyCanonical (pathText (root ++ names)) = some path)
    (hbegins : pathText canonicalRoot <+: pathText path) :
    isSafeStaticPath v [] (47 :: relative names) rootDir = some (pathText path) := by
  have hproper : ∀ n ∈ names, IsName n := fun n hn => (hnames n hn).toIsName
  have hnormal : lexicallyNormal (pathNames (relative names)) = names := by
    rw [pathNames_relative hproper, lexicallyNormal, foldl_enter_names hproper, List.nil_append]
  unfold isSafeStaticPath
  rw [hroot.resolved, Option.bind_some]
  dsimp only
  rw [staticSuffix_relative hproper hne, if_neg (dotDot_relative hnames), hroot.again,
    Option.bind_some, hnormal, hpath, Option.bind_some, if_pos hbegins]

lemma Volume.Rooted.unique {canonicalRoot root' canonicalRoot' : List Bytes}
    (h : v.Rooted rootDir root canonicalRoot) (h' : v.Rooted rootDir root' canonicalRoot') :
    root' = root ∧ canonicalRoot' = canonicalRoot := by
  have hroot : root' = root := Option.some.inj (h'.resolved.symm.trans h.resolved)
  subst hroot
  exact ⟨rfl, Option.some.inj (h'.again.symm.trans h.again)⟩

/-- Every path that is accepted is the resolved root or lies below it, unless a path
below the root leads through links to a neighbour of the root whose name begins with
the name of the root. -/
theorem contained_iff (v : Volume) (rootDir : Bytes) :
    (∀ mountPath requestPath resolved,
      isSafeStaticPath v mountPath requestPath rootDir = some resolved →
        ∃ root canonicalRoot, v.Rooted rootDir root canonicalRoot ∧ Below canonicalRoot resolved) ↔
    ¬ ∃ root canonicalRoot, v.Rooted rootDir root canonicalRoot ∧
      v.LeadsBeside root canonicalRoot := by
  constructor
  · rintro hsafe ⟨root, canonicalRoot, hroot, names, path, hnames, hpath, hbeside⟩
    rcases hbeside.text (Volume.weaklyCanonical_names hpath) with ⟨hbegins, houtside⟩
    -- the root itself is not beside the root
    have hne : names ≠ [] := by
      rintro rfl
      rw [List.append_nil, hroot.again] at hpath
      cases hpath
      exact houtside ⟨[], by simp, by rw [List.append_nil]⟩
    rcases hsafe _ _ _ (isSafeStaticPath_relative hroot hnames hne hpath hbegins) with
      ⟨root', canonicalRoot', hroot', hbelow⟩
    rcases hroot.unique hroot' with ⟨rfl, rfl⟩
    exact houtside hbelow
  · intro hleads mountPath requestPath resolved hsafe
    rcases isSafeStaticPath_eq_some hsafe with
      ⟨root, canonicalRoot, names, path, hroot, hnames, hpath, hbegins, rfl⟩
    refine ⟨root, canonicalRoot, hroot, ?_⟩
    rcases below_or_beside (Volume.weaklyCanonical_names hroot.again)
      (Volume.weaklyCanonical_names hpath) hbegins with h | h
    · exact h
    · exact absurd ⟨root, canonicalRoot, hroot, names, path, hnames, hpath, h⟩ hleads

/-- Without links a normal path is resolved already. -/
lemma Volume.weaklyCanonical_of_plain
    (hplain : ∀ path target, v.entry path ≠ some (.link target)) (hsteps : 2 ≤ v.maxSteps)
    (hnames : ∀ n ∈ names, IsName n) : v.weaklyCanonical (pathText names) = some names := by
  have hfrom : ∀ dir, v.canonicalFrom dir names = some (dir ++ names) := by
    induction names with
    | nil => simp [canonicalFrom]
    | cons n ns ih =>
      intro dir
      have hn := hnames n List.mem_cons_self
      rcases Nat.exists_eq_add_of_le' hsteps with ⟨k, hk⟩
      have hno : ¬ (n = dot ∨ n = dotDot) := not_or.mpr ⟨hn.ne_dot, hn.ne_dotDot⟩
      rcases hentry : v.entry (dir ++ [n]) with _ | ⟨_ | target⟩
      · have hres : v.resolve v.maxSteps dir [n] = .missing := by
          simp only [hk, resolve, if_neg hno, hentry]
        simp only [canonicalFrom, hres, foldl_enter_names hnames]
      · have hres : v.resolve v.maxSteps dir [n] = .found (dir ++ [n]) := by
          simp only [hk, resolve, if_neg hno, hentry]
        simp only [canonicalFrom, hres, ih (fun x hx => hnames x (List.mem_cons_of_mem _ hx)),
          List.append_assoc, List.singleton_append]
      · exact absurd hentry (hplain _ _)
  have hhead : (pathText names).head? = some 47 := by
    rcases names with _ | ⟨n, ns⟩ <;> simp [pathText]
  rw [weaklyCanonical, if_pos hhead, pathNames_pathText hnames, hfrom, List.nil_append]

/-- Without links nothing leads beside the root. -/
lemma not_leadsBeside_of_plain (hplain : ∀ path target, v.entry path ≠ some (.link target))
    (hsteps : 2 ≤ v.maxSteps) (hroot : ∀ n ∈ root, IsName n) : ¬ v.LeadsBeside root root := by
  rintro ⟨names, path, hnames, hpath, parent, name, more, rest, rfl, rfl, hmore⟩
  have hproper : ∀ n ∈ parent ++ [name] ++ names, IsName n := by
    intro n hn
    rcases List.mem_append.mp hn with hn | hn
    · exact hroot n hn
    · exact (hnames n hn).toIsName
  rw [Volume.weaklyCanonical_of_plain hplain hsteps hproper] at hpath
  simp only [Option.some.injEq, List.append_assoc, List.singleton_append,
    List.append_cancel_left_eq, List.cons.injEq, List.self_eq_append_right] at hpath
  exact hmore hpath.1

def plainVolume : Volume where
  entry path :=
    if path = [ascii "srv"] ∨ path = [ascii "srv", ascii "www"] then some .plain else none
  cwd := []
  maxSteps := 40
  cwd_names := by simp

/-- All that is served from this root lies below it. -/
theorem contained_iff_plain : ∀ mountPath requestPath resolved,
    isSafeStaticPath plainVolume mountPath requestPath (ascii "/srv/www") = some resolved →
      ∃ root canonicalRoot, plainVolume.Rooted (ascii "/srv/www") root canonicalRoot ∧
        Below canonicalRoot resolved := by
  refine (contained_iff plainVolume _).mpr ?_
  rintro ⟨root, canonicalRoot, hroot, hleads⟩
  have hplain : ∀ path target, plainVolume.entry path ≠ some (.link target) := by
    intro path target h
    unfold plainVolume at h
    dsimp only at h
    split at h <;> cases h
  have hnames := Volume.weaklyCanonical_names hroot.resolved
  have hagain := hroot.again
  rw [Volume.weaklyCanonical_of_plain hplain (by decide) hnames] at hagain
  cases hagain
  exact not_leadsBeside_of_plain hplain (by decide) hnames hleads

/-- A document root with one page and one link. -/
def linkVolume (target : Bytes) : Volume where
  entry path :=
    if path = [ascii "srv", ascii "www", ascii "old"] then some (.link target)
    else if path ∈ [[ascii "srv"], [ascii "srv", ascii "www"], [ascii "srv", ascii "www-old"],
        [ascii "srv", ascii "www-old", ascii "key"], [ascii "srv", ascii "www", ascii "a"]] then
      some .plain
    else none
  cwd := []
  maxSteps := 40
  cwd_names := by simp

/-- The link leads to a directory beside the root, `/srv/www-old`, and its files are
served. -/
theorem sibling_served :
    isSafeStaticPath (linkVolume (ascii "../www-old")) (ascii "/") (ascii "/old/key")
      (ascii "/srv/www") = some (ascii "/srv/www-old/key") ∧
    (linkVolume (ascii "../www-old")).Rooted (ascii "/srv/www") [ascii "srv", ascii "www"]
      [ascii "srv", ascii "www"] ∧
    ¬ Below [ascii "srv", ascii "www"] (ascii "/srv/www-old/key") := by
  refine ⟨by decide +kernel, ⟨by decide +kernel, by decide +kernel⟩, ?_⟩
  have hpath : (linkVolume (ascii "../www-old")).weaklyCanonical (ascii "/srv/www-old/key") =
      some [ascii "srv", ascii "www-old", ascii "key"] := by decide +kernel
  have hbeside : Beside [ascii "srv", ascii "www"] [ascii "srv", ascii "www-old", ascii "key"] :=
    ⟨[ascii "srv"], ascii "www", ascii "-old", [ascii "key"], rfl, by decide, by decide⟩
  exact (hbeside.text (Volume.weaklyCanonical_names hpath)).2

end EpollGateway.Static
