namespace PluginAgent.Pattern

def letterEscapes : List Char :=
  "dDsSwWafnrtvAz".toList

def categories : List Char :=
  "LMNPSZC".toList

def isHex (c : Char) : Bool :=
  c.isDigit || ('a' ≤ c.toLower && c.toLower ≤ 'f')

def isQuotable (c : Char) : Bool :=
  c.toNat < 128 && !c.isAlphanum && c != '<' && c != '>'

def afterEscape? : List Char → Option (List Char)
  | [] => none
  | c :: r =>
    if c = 'x' then hexes 2 r
    else if c = 'u' then hexes 4 r
    else if c = 'U' then hexes 8 r
    else if c = 'p' || c = 'P' then match r with
      | k :: r => if categories.contains k then some r else none
      | [] => none
    else if letterEscapes.contains c || isQuotable c then some r
    else none
where
  hexes (count : Nat) (s : List Char) : Option (List Char) :=
    if (s.take count).length = count && (s.take count).all isHex then some (s.drop count) else none

/-- Skips a class after its opening bracket. `first` tells that a closing bracket would still stand
for itself, and `depth` counts the classes open around. -/
def afterClass? : Nat → Nat → Bool → List Char → Option (List Char)
  | 0, _, _, _ => none
  | _, _, _, [] => none
  | fuel + 1, depth, first, c :: r =>
    if c = '\\' then (afterEscape? r).bind (afterClass? fuel depth false)
    else if c = '^' && first then afterClass? fuel depth true r
    else if c = '[' then afterClass? fuel (depth + 1) true r
    else if c = ']' && !first then
      match depth with
      | 0 => some r
      | depth + 1 => afterClass? fuel depth false r
    else match r with
      | '-' :: hi :: rest =>
        if hi = ']' || hi = '[' || hi = '\\' || hi = '-' then afterClass? fuel depth false r
        else if c ≤ hi then afterClass? fuel depth false rest
        else none
      | _ => afterClass? fuel depth false r

def afterGroupMarks? : List Char → Option (List Char)
  | '?' :: ':' :: r => some r
  | '?' :: 'P' :: '<' :: r => afterName r
  | '?' :: '<' :: r => afterName r
  | '?' :: r =>
    match r.dropWhile fun c => "imsUuxR-".toList.contains c with
    | ':' :: rest => some rest
    | ')' :: rest => if r.length > rest.length + 1 then some (')' :: rest) else none
    | _ => none
  | r => some r
where
  afterName (r : List Char) : Option (List Char) :=
    match r.span fun c => c.isAlphanum || c == '_' with
    | (c :: _, '>' :: rest) => if c.isDigit then none else some rest
    | _ => none

def scan : Nat → Nat → Bool → List Char → Bool
  | 0, _, _, _ => false
  | _, depth, _, [] => depth = 0
  | fuel + 1, depth, operand, c :: r =>
    if c = '\\' then
      match afterEscape? r with
      | some rest => scan fuel depth true rest
      | none => false
    else if c = '[' then
      match afterClass? (r.length + 1) 0 true r with
      | some rest => scan fuel depth true rest
      | none => false
    else if c = '(' then
      match afterGroupMarks? r with
      | some rest => scan fuel (depth + 1) false rest
      | none => false
    else if c = ')' then
      match depth with
      | 0 => false
      | depth + 1 => scan fuel depth true r
    else if c = '|' then scan fuel depth false r
    else if c = '*' || c = '+' || c = '?' then
      if operand then scan fuel depth true r else false
    else if c = '{' then false
    else scan fuel depth true r

def isValid (s : List Char) : Bool :=
  scan (s.length + 1) 0 false s

end PluginAgent.Pattern
