import Mathlib.Data.List.Basic
import Mathlib.Data.List.TakeDrop

namespace AtomVibe.Url

def scheme (url : List Char) : List Char := (url.takeWhile (· ≠ ':')).map Char.toLower

def insideAuthority (c : Char) : Bool := !(c == '/' || c == '?' || c == '#')

def authority (url : List Char) : List Char :=
  ((url.dropWhile (· ≠ ':')).drop 3).takeWhile insideAuthority

def afterUserinfo (authority : List Char) : List Char :=
  (authority.reverse.takeWhile (· ≠ '@')).reverse

def withoutPort (server : List Char) : List Char :=
  if server.head? = some '[' then
    server.takeWhile (· ≠ ']') ++ (server.dropWhile (· ≠ ']')).takeWhile (· ≠ ':')
  else server.takeWhile (· ≠ ':')

def host (url : List Char) : List Char := withoutPort (afterUserinfo (authority url))

def Port (cs : List Char) : Prop := cs = [] ∨ cs.head? = some ':'

instance (cs : List Char) : Decidable (Port cs) :=
  inferInstanceAs (Decidable (cs = [] ∨ cs.head? = some ':'))

def HostText (name : List Char) : Prop :=
  (name ≠ [] ∧ ':' ∉ name ∧ name.head? ≠ some '[') ∨
    ∃ inner, ']' ∉ inner ∧ name = '[' :: (inner ++ [']'])

variable {name rest server : List Char}

theorem takeWhile_ne_of_not_mem {c : Char} (h : c ∉ name) (rest : List Char) :
    (name ++ rest).takeWhile (· ≠ c) = name ++ rest.takeWhile (· ≠ c) := by
  apply List.takeWhile_append_of_pos
  intro d hd
  simp only [ne_eq, decide_eq_true_eq]
  rintro rfl
  exact h hd

theorem takeWhile_ne_self {c : Char} (h : c ∉ name) : name.takeWhile (· ≠ c) = name := by
  have := takeWhile_ne_of_not_mem h []
  simpa using this

theorem dropWhile_ne_of_not_mem {c : Char} (h : c ∉ name) (rest : List Char) :
    (name ++ c :: rest).dropWhile (· ≠ c) = c :: rest := by
  rw [List.dropWhile_append_of_pos, List.dropWhile_cons_of_neg (by simp)]
  intro d hd
  simp only [ne_eq, decide_eq_true_eq]
  rintro rfl
  exact h hd

theorem takeWhile_port : rest.takeWhile (· ≠ ':') = [] ↔ Port rest := by
  cases rest with
  | nil => simp [Port]
  | cons c cs =>
    by_cases hc : c = ':'
    · simp [Port, hc]
    · simp [Port, hc]

theorem port_dropWhile (cs : List Char) : Port (cs.dropWhile (· ≠ ':')) := by
  induction cs with
  | nil => exact .inl rfl
  | cons c cs ih =>
    by_cases hc : c = ':'
    · subst hc
      exact .inr rfl
    · rwa [List.dropWhile_cons_of_pos (by simpa using hc)]

theorem withoutPort_append (h : HostText name) (rest : List Char) :
    withoutPort (name ++ rest) = name ++ rest.takeWhile (· ≠ ':') := by
  rcases h with ⟨hne, hcolon, hbracket⟩ | ⟨inner, hinner, rfl⟩
  · have hhead : (name ++ rest).head? = name.head? := by
      rw [List.head?_append_of_ne_nil _ hne]
    rw [withoutPort, hhead, if_neg hbracket, takeWhile_ne_of_not_mem hcolon]
  · have hopen : ']' ∉ '[' :: inner := by simp [hinner]
    have hsplit : '[' :: (inner ++ [']']) ++ rest = ('[' :: inner) ++ ']' :: rest := by simp
    have hhead : ('[' :: (inner ++ [']']) ++ rest).head? = some '[' := rfl
    rw [withoutPort, if_pos hhead, hsplit, takeWhile_ne_of_not_mem hopen,
      dropWhile_ne_of_not_mem hopen, List.takeWhile_cons_of_neg (by simp),
      List.takeWhile_cons_of_pos (by simp)]
    simp

theorem exists_port (server : List Char) :
    ∃ port, Port port ∧ server = withoutPort server ++ port := by
  unfold withoutPort
  split
  · refine ⟨(server.dropWhile (· ≠ ']')).dropWhile (· ≠ ':'), port_dropWhile _, ?_⟩
    rw [List.append_assoc, List.takeWhile_append_dropWhile, List.takeWhile_append_dropWhile]
  · exact ⟨_, port_dropWhile server, (List.takeWhile_append_dropWhile).symm⟩

theorem withoutPort_eq_iff (h : HostText name) :
    withoutPort server = name ↔ ∃ port, Port port ∧ server = name ++ port := by
  constructor
  · rintro rfl
    exact exists_port server
  · rintro ⟨port, hport, rfl⟩
    rw [withoutPort_append h, takeWhile_port.mpr hport, List.append_nil]

theorem afterUserinfo_of_not_mem (h : '@' ∉ server) : afterUserinfo server = server := by
  rw [afterUserinfo, takeWhile_ne_self (by simpa using h), List.reverse_reverse]

theorem afterUserinfo_append (h : '@' ∉ server) (user : List Char) :
    afterUserinfo (user ++ '@' :: server) = server := by
  have hreverse : (user ++ '@' :: server).reverse = server.reverse ++ '@' :: user.reverse := by simp
  rw [afterUserinfo, hreverse, takeWhile_ne_of_not_mem (by simpa using h),
    List.takeWhile_cons_of_neg (by simp), List.append_nil, List.reverse_reverse]

theorem authority_cases (cs : List Char) :
    '@' ∉ cs ∨ ∃ user server, '@' ∉ server ∧ cs = user ++ '@' :: server := by
  induction cs with
  | nil => exact .inl List.not_mem_nil
  | cons c cs ih =>
    rcases ih with h | ⟨user, server, hserver, rfl⟩
    · by_cases hc : c = '@'
      · exact .inr ⟨[], cs, h, by rw [hc]; rfl⟩
      · exact .inl (by simp [h, Ne.symm hc])
    · exact .inr ⟨c :: user, server, hserver, rfl⟩

theorem scheme_append {protocol : List Char} (h : ':' ∉ protocol) (rest : List Char) :
    scheme (protocol ++ ':' :: rest) = protocol.map Char.toLower := by
  rw [scheme, takeWhile_ne_of_not_mem h, List.takeWhile_cons_of_neg (by simp), List.append_nil]

theorem authority_append {protocol : List Char} (h : ':' ∉ protocol)
    (hname : ∀ c ∈ name, insideAuthority c = true) (rest : List Char) :
    authority (protocol ++ ':' :: '/' :: '/' :: (name ++ rest)) =
      name ++ rest.takeWhile insideAuthority := by
  rw [authority, dropWhile_ne_of_not_mem h]
  simp only [List.drop_succ_cons, List.drop_zero]
  exact List.takeWhile_append_of_pos hname

end AtomVibe.Url
