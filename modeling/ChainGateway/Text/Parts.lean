namespace ChainGateway.Text

/-- The parts of a text between the characters at which it is to be cut. -/
def cutAt (cut : Char → Bool) (cs : List Char) : List (List Char) :=
  cs.foldr
    (fun c parts => if cut c then [] :: parts else (c :: parts.headD []) :: parts.tail) [[]]

end ChainGateway.Text
